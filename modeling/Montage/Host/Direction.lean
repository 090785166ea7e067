import Montage.Host.Character
import Montage.Text.Quoted

/-! # Directions

A script runs to the right or to the left, and figures, marks and signs follow what is around
them.  A name with a letter that runs to the left has to be readable in that direction as a
whole (`checkDirections`): it begins with a letter, does not mix letters of both directions, nor
two sorts of figures, and ends with a letter or a figure, perhaps with marks behind it.
-/
namespace Montage.Host

inductive Direction where
  | rightward
  | leftward
  /-- Leftward, with figures of its own. -/
  | arabic
  | figure
  | arabicFigure
  | hyphen
  | neutral
  | mark
  | boundary
  deriving DecidableEq, Repr

def leftwardRanges : List (Nat × Nat) :=
  [(1488, 1514), (1519, 1524), (1984, 2026), (2036, 2037), (2048, 2069), (2074, 2074), (2084, 2084),
   (2088, 2088), (2112, 2136), (67584, 67589), (67592, 67592), (67594, 67637), (67639, 67640),
   (67644, 67644), (67647, 67669), (67680, 67702), (67712, 67742), (67808, 67826), (67828, 67829),
   (67840, 67861), (67872, 67897), (67968, 68023), (68030, 68031), (68096, 68096), (68112, 68115),
   (68117, 68119), (68121, 68149), (68192, 68220), (68224, 68252), (68288, 68295), (68297, 68324),
   (68352, 68405), (68416, 68437), (68448, 68466), (68480, 68497), (68608, 68680), (68800, 68850),
   (69248, 69289), (69296, 69297), (69376, 69404), (69415, 69415), (69488, 69505), (69552, 69572),
   (69600, 69622), (124928, 125124), (125218, 125251), (125259, 125259), (125264, 125273)]

def arabicRanges : List (Nat × Nat) :=
  [(1568, 1599), (1601, 1610), (1646, 1647), (1649, 1652), (1657, 1747), (1749, 1749), (1765, 1766),
   (1774, 1775), (1786, 1791), (1808, 1808), (1810, 1839), (1869, 1957), (1969, 1969), (2144, 2154),
   (2160, 2183), (2185, 2190), (2208, 2249), (65139, 65139), (68864, 68899), (69424, 69445)]

def figureRanges : List (Nat × Nat) :=
  [(48, 57), (1776, 1785)]

def arabicFigureRanges : List (Nat × Nat) :=
  [(1632, 1641), (68912, 68921)]

def neutralRanges : List (Nat × Nat) :=
  [(183, 183), (697, 698), (710, 719), (748, 748), (885, 885), (11823, 11823), (12539, 12539),
   (42623, 42623), (42775, 42783), (42888, 42888)]

/-- Marks that follow the letter before them. -/
def followingRanges : List (Nat × Nat) :=
  [(768, 831), (834, 834), (838, 846), (848, 879), (1155, 1159), (1425, 1469), (1471, 1471),
   (1473, 1474), (1476, 1477), (1479, 1479), (1552, 1562), (1611, 1631), (1648, 1648), (1750, 1756),
   (1759, 1764), (1767, 1768), (1770, 1773), (1809, 1809), (1840, 1866), (1958, 1968), (2027, 2035),
   (2045, 2045), (2070, 2073), (2075, 2083), (2085, 2087), (2089, 2093), (2137, 2139), (2200, 2207),
   (2250, 2273), (2275, 2306), (2362, 2362), (2364, 2364), (2369, 2376), (2381, 2381), (2385, 2391),
   (2402, 2403), (2433, 2433), (2492, 2492), (2497, 2500), (2509, 2509), (2530, 2531), (2558, 2558),
   (2561, 2562), (2620, 2620), (2625, 2626), (2631, 2632), (2635, 2637), (2641, 2641), (2672, 2673),
   (2677, 2677), (2689, 2690), (2748, 2748), (2753, 2757), (2759, 2760), (2765, 2765), (2786, 2787),
   (2810, 2815), (2817, 2817), (2876, 2876), (2879, 2879), (2881, 2884), (2893, 2893), (2901, 2902),
   (2914, 2915), (2946, 2946), (3008, 3008), (3021, 3021), (3072, 3072), (3076, 3076), (3132, 3132),
   (3134, 3136), (3142, 3144), (3146, 3149), (3157, 3158), (3170, 3171), (3201, 3201), (3260, 3260),
   (3276, 3277), (3298, 3299), (3328, 3329), (3387, 3388), (3393, 3396), (3405, 3405), (3426, 3427),
   (3457, 3457), (3530, 3530), (3538, 3540), (3542, 3542), (3633, 3633), (3636, 3642), (3655, 3662),
   (3761, 3761), (3764, 3772), (3784, 3789), (3864, 3865), (3893, 3893), (3895, 3895), (3897, 3897),
   (3953, 3954), (3956, 3956), (3962, 3966), (3968, 3968), (3970, 3972), (3974, 3975), (3981, 3986),
   (3988, 3991), (3993, 3996), (3998, 4001), (4003, 4006), (4008, 4011), (4013, 4024), (4026, 4028),
   (4038, 4038), (4141, 4144), (4146, 4151), (4153, 4154), (4157, 4158), (4184, 4185), (4190, 4192),
   (4209, 4212), (4226, 4226), (4229, 4230), (4237, 4237), (4253, 4253), (4957, 4959), (5906, 5908),
   (5938, 5939), (5970, 5971), (6002, 6003), (6071, 6077), (6086, 6086), (6089, 6099), (6109, 6109),
   (6277, 6278), (6313, 6313), (6432, 6434), (6439, 6440), (6450, 6450), (6457, 6459), (6679, 6680),
   (6683, 6683), (6742, 6742), (6744, 6750), (6752, 6752), (6754, 6754), (6757, 6764), (6771, 6780),
   (6783, 6783), (6832, 6845), (6847, 6862), (6912, 6915), (6964, 6964), (6966, 6970), (6972, 6972),
   (6978, 6978), (7019, 7027), (7040, 7041), (7074, 7077), (7080, 7081), (7083, 7085), (7142, 7142),
   (7144, 7145), (7149, 7149), (7151, 7153), (7212, 7219), (7222, 7223), (7376, 7378), (7380, 7392),
   (7394, 7400), (7405, 7405), (7412, 7412), (7416, 7417), (7616, 7679), (11503, 11505),
   (11647, 11647), (11744, 11775), (12330, 12333), (12441, 12442), (42607, 42607), (42612, 42621),
   (42654, 42655), (42736, 42737), (43010, 43010), (43014, 43014), (43019, 43019), (43045, 43046),
   (43052, 43052), (43204, 43205), (43232, 43249), (43263, 43263), (43302, 43309), (43335, 43345),
   (43392, 43394), (43443, 43443), (43446, 43449), (43452, 43453), (43493, 43493), (43561, 43566),
   (43569, 43570), (43573, 43574), (43587, 43587), (43596, 43596), (43644, 43644), (43696, 43696),
   (43698, 43700), (43703, 43704), (43710, 43711), (43713, 43713), (43756, 43757), (43766, 43766),
   (44005, 44005), (44008, 44008), (44013, 44013), (64286, 64286), (65056, 65071), (66045, 66045),
   (66272, 66272), (66422, 66426), (68097, 68099), (68101, 68102), (68108, 68111), (68152, 68154),
   (68159, 68159), (68325, 68326), (68900, 68903), (69291, 69292), (69446, 69456), (69506, 69509),
   (69633, 69633), (69688, 69702), (69744, 69744), (69747, 69748), (69759, 69761), (69811, 69814),
   (69817, 69818), (69826, 69826), (69888, 69890), (69927, 69931), (69933, 69940), (70003, 70003),
   (70016, 70017), (70070, 70078), (70089, 70092), (70095, 70095), (70191, 70193), (70196, 70196),
   (70198, 70199), (70206, 70206), (70367, 70367), (70371, 70378), (70400, 70401), (70459, 70460),
   (70464, 70464), (70502, 70508), (70512, 70516), (70712, 70719), (70722, 70724), (70726, 70726),
   (70750, 70750), (70835, 70840), (70842, 70842), (70847, 70848), (70850, 70851), (71090, 71093),
   (71100, 71101), (71103, 71104), (71132, 71133), (71219, 71226), (71229, 71229), (71231, 71232),
   (71339, 71339), (71341, 71341), (71344, 71349), (71351, 71351), (71453, 71455), (71458, 71461),
   (71463, 71467), (71727, 71735), (71737, 71738), (71995, 71996), (71998, 71998), (72003, 72003),
   (72148, 72151), (72154, 72155), (72160, 72160), (72193, 72198), (72201, 72202), (72243, 72248),
   (72251, 72254), (72263, 72263), (72273, 72278), (72281, 72283), (72330, 72342), (72344, 72345),
   (72752, 72758), (72760, 72765), (72850, 72871), (72874, 72880), (72882, 72883), (72885, 72886),
   (73009, 73014), (73018, 73018), (73020, 73021), (73023, 73029), (73031, 73031), (73104, 73105),
   (73109, 73109), (73111, 73111), (73459, 73460), (92912, 92916), (92976, 92982), (94031, 94031),
   (94095, 94098), (94180, 94180), (113821, 113822), (118528, 118573), (118576, 118598),
   (121344, 121398), (121403, 121452), (121461, 121461), (121476, 121476), (121499, 121503),
   (121505, 121519), (122880, 122886), (122888, 122904), (122907, 122913), (122915, 122916),
   (122918, 122922), (123184, 123190), (123566, 123566), (123628, 123631), (125136, 125142),
   (125252, 125258)]

/-- Characters whose direction nobody has settled. -/
def unsettledRanges : List (Nat × Nat) :=
  [(2191, 2191), (2199, 2199), (3164, 3164), (3292, 3292), (3315, 3315), (3790, 3790), (6863, 6877),
   (6880, 6891), (7306, 7306), (42957, 42957), (42959, 42959), (42971, 42971), (67008, 67059),
   (67904, 67929), (68928, 68943), (68969, 68973), (68975, 68997), (69314, 69319), (69370, 69375),
   (70207, 70209), (70528, 70537), (70539, 70539), (70542, 70542), (70544, 70581), (70583, 70592),
   (70594, 70594), (70597, 70597), (70599, 70602), (70604, 70611), (70625, 70626), (71376, 71395),
   (72544, 72551), (72640, 72672), (72688, 72697), (73136, 73179), (73184, 73193), (73472, 73488),
   (73490, 73530), (73534, 73538), (73552, 73562), (78895, 78895), (78912, 78933), (78944, 82938),
   (90368, 90425), (93504, 93548), (93552, 93561), (93883, 93907), (94194, 94195), (100344, 100351),
   (101631, 101631), (101641, 101662), (101760, 101874), (110898, 110898), (110933, 110933),
   (122661, 122666), (123023, 123023), (124112, 124153), (124368, 124410), (124608, 124638),
   (124640, 124661), (124670, 124671), (177977, 177983), (183970, 183981), (191472, 192093),
   (201552, 210041)]

/-- The direction of a character that a name may hold, if it is settled. -/
def direction? (c : Char) : Option Direction :=
  if isIn unsettledRanges c then none
  else if isIn leftwardRanges c then some .leftward
  else if isIn arabicRanges c then some .arabic
  else if isIn figureRanges c then some .figure
  else if isIn arabicFigureRanges c then some .arabicFigure
  else if c = '-' then some .hyphen
  else if isIn neutralRanges c then some .neutral
  else if isIn followingRanges c then some .mark
  else if c.toNat = 0x200c ∨ c.toNat = 0x200d then some .boundary
  else some .rightward

/-- Why a name cannot be read in one direction. -/
inductive DirectionFault where
  | unsettled (name : String) (position : Nat)
  | first (name : String)
  | stray (position : Nat) (isLeftward : Bool)
  | mixedFigures
  | ending
  deriving DecidableEq, Repr

def DirectionFault.message : DirectionFault → String
  | unsettled name n =>
    "Unknown directionality in label " ++ Text.quoted name ++ " at position " ++ toString n
  | first name =>
    "First codepoint in label " ++ Text.quoted name ++ " must be directionality L, R or AL"
  | stray n isLeftward =>
    "Invalid direction for codepoint at position " ++ toString n ++ " in a " ++
      (if isLeftward then "right-to-left" else "left-to-right") ++ " label"
  | mixedFigures => "Can not mix numeral types in a right-to-left label"
  | ending => "Label ends with illegal codepoint directionality"

namespace Direction

/-- Characters that make the direction of a name matter. -/
def isLeftward : Direction → Bool
  | leftward | arabic | arabicFigure => true
  | _ => false

def isFigure : Direction → Bool
  | figure | arabicFigure => true
  | _ => false

/-- Whether a name may end after a character, if it may or may not before. -/
def endsWell (before : Bool) : Direction → Bool
  | rightward | leftward | arabic | figure | arabicFigure => true
  | mark => before
  | _ => false

end Direction

/-- Checks a name that runs to the right, from a position on. -/
def checkRightward (position : Nat) (ending : Bool) :
    List Direction → Except DirectionFault Unit
  | [] => if ending then .ok () else .error .ending
  | d :: rest =>
    if d.isLeftward then .error (.stray position false)
    else checkRightward (position + 1) (d.endsWell ending) rest

/-- Checks a name that runs to the left, from a position on; `figures` is the sort of figures
that was met. -/
def checkLeftward (position : Nat) (ending : Bool) (figures : Option Direction) :
    List Direction → Except DirectionFault Unit
  | [] => if ending then .ok () else .error .ending
  | d :: rest =>
    if d = .rightward then .error (.stray position true)
    else if d.isFigure && figures.any (· != d) then .error .mixedFigures
    else
      checkLeftward (position + 1) (d.endsWell ending) (if d.isFigure then some d else figures)
        rest

/-- The directions of all characters from a position on. -/
def directionsFrom (name : String) (position : Nat) :
    List Char → Except DirectionFault (List Direction)
  | [] => .ok []
  | c :: rest =>
    match direction? c with
    | none => .error (.unsettled name position)
    | some d => (directionsFrom name (position + 1) rest).map (d :: ·)

/-- Checks that a name can be read in one direction. -/
def checkDirections (cs : List Char) : Except DirectionFault Unit := do
  let ds ← directionsFrom (String.ofList cs) 1 cs
  if ds.any Direction.isLeftward then
    match ds.head? with
    | some .leftward | some .arabic => checkLeftward 1 false none ds
    | some .rightward => checkRightward 1 false ds
    | _ => .error (.first (String.ofList cs))
  else .ok ()

end Montage.Host
