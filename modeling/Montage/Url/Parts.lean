import Montage.Text.Quoted
import Montage.Url.Address

/-! # Parts of a URL

A URL falls into scheme, authority, path, query and fragment (`UrlParts.read`).  Characters
that no URL keeps are overlooked first, and a part that is not there is empty.  The path is
never checked; the authority is, because brackets around a host have to hold an address, and
because some characters would become separators of parts in another form of the same text.

`write` puts parts together again.
-/
namespace Montage

open Montage.Text

/-- What stands before the first occurrence of a character, and from it on. -/
def cutAt (stop : Char → Bool) (cs : List Char) : List Char × List Char :=
  (cs.takeWhile (!stop ·), cs.dropWhile (!stop ·))

/-- What stands before a character, and behind it. -/
def cutOff (stop : Char) (cs : List Char) : List Char × List Char :=
  let (before, rest) := cutAt (· == stop) cs
  (before, rest.drop 1)

/-- What stands behind the last occurrence of a character. -/
def afterLast (stop : Char) (cs : List Char) : List Char :=
  (cs.reverse.takeWhile (· != stop)).reverse

structure UrlParts where
  /-- In lower case. -/
  scheme : List Char
  authority : List Char
  path : List Char
  query : List Char
  fragment : List Char
  deriving DecidableEq, Repr

namespace UrlParts

/-- Why a text does not fall into parts. -/
inductive Fault where
  | brackets
  | futureAddress
  /-- Neither kind of address stands between the brackets. -/
  | noAddress (host : String)
  | shortAddress
  /-- A character of the authority could be read as a separator. -/
  | ambiguous (authority : String)
  deriving DecidableEq, Repr

def Fault.message : Fault → String
  | brackets => "Invalid IPv6 URL"
  | futureAddress => "IPvFuture address is invalid"
  | noAddress host => quoted host ++ " does not appear to be an IPv4 or IPv6 address"
  | shortAddress => "An IPv4 address cannot be in brackets"
  | ambiguous authority =>
    "netloc '" ++ authority ++ "' contains invalid characters under NFKC normalization"

/-! ### Scheme -/

/-- The characters of a scheme. -/
def isSchemeChar (c : Char) : Bool := isAsciiAlphanumeric c || c == '+' || c == '-' || c == '.'

/-- A scheme, if there is one, and what follows its colon. -/
def takeScheme (cs : List Char) : List Char × List Char :=
  match cutAt (· == ':') cs with
  | (c :: scheme, ':' :: rest) =>
    if isAsciiLetter c && scheme.all isSchemeChar then ((c :: scheme).map Char.toLower, rest)
    else ([], cs)
  | _ => ([], cs)

/-- Characters that a URL does not keep: controls and blanks at its start, and line feeds,
carriage returns and tabs anywhere. -/
def clean (cs : List Char) : List Char :=
  (cs.dropWhile fun c => c.toNat ≤ 0x20).filter fun c => c != '\n' && c != '\r' && c != '\t'

/-! ### Authority -/

/-- Checks what stands between the brackets of a host. -/
def checkBracketed (host : List Char) : Except Fault Unit :=
  match host with
  | 'v' :: rest =>
    let (version, address) := cutAt (· == '.') rest
    if !version.isEmpty && version.all isHexDigit && address.length ≥ 2 then .ok ()
    else .error .futureAddress
  | _ =>
    if Address.isShort host then .error .shortAddress
    else if Address.isLong host then .ok ()
    else .error (.noAddress (String.ofList host))

/-- Checks the host behind a user: brackets enclose all of it, up to a port. -/
def checkHost (host : List Char) : Except Fault Unit :=
  match cutAt (· == '[') host with
  | (_, []) => checkBracketed (cutOff ':' host).1
  | (before, _ :: inside) =>
    let (address, port) := cutOff ']' inside
    if before.isEmpty && (port.isEmpty || port.head? == some ':') then checkBracketed address
    else .error .brackets

/-- First and last code point of each range of characters that look like a separator, or like
several characters with one among them. -/
def lookalikes : List (Nat × Nat) :=
  [(8263, 8265), (8448, 8449), (8453, 8454), (10868, 10868), (65043, 65043), (65046, 65046),
   (65109, 65110), (65119, 65119), (65131, 65131), (65283, 65283), (65295, 65295),
   (65306, 65306), (65311, 65312)]

def isLookalike (c : Char) : Bool :=
  lookalikes.any fun (low, high) => low ≤ c.toNat && c.toNat ≤ high

/-- Checks an authority. -/
def checkAuthority (authority : List Char) : Except Fault Unit := do
  match authority.contains '[', authority.contains ']' with
  | false, false => .ok ()
  | true, true => checkHost (afterLast '@' authority)
  | _, _ => .error .brackets
  if authority.any isLookalike then .error (.ambiguous (String.ofList authority)) else .ok ()

/-! ### Reading and writing -/

/-- Parts from the path on. -/
def ofRest (scheme authority rest : List Char) : UrlParts :=
  let (rest, fragment) := cutOff '#' rest
  let (path, query) := cutOff '?' rest
  { scheme, authority, path, query, fragment }

/-- The parts of a text; without a scheme it has the one that is given. -/
def readWith (scheme : List Char) (url : List Char) : Except Fault UrlParts :=
  let (given, rest) := takeScheme (clean url)
  let scheme := if given.isEmpty then scheme else given
  match rest with
  | '/' :: '/' :: more =>
    let (authority, rest) := cutAt (fun c => c == '/' || c == '?' || c == '#') more
    (checkAuthority authority).map fun _ => ofRest scheme authority rest
  | rest => .ok (ofRest scheme [] rest)

/-- The parts of a text. -/
def read (url : List Char) : Except Fault UrlParts := readWith [] url

/-- A separator with what follows it, if anything does. -/
def behind (separator : Char) : List Char → List Char
  | [] => []
  | cs => separator :: cs

/-- The text of parts.  A scheme has an authority behind it, perhaps an empty one. -/
def write (p : UrlParts) : List Char :=
  let authority :=
    if p.scheme.isEmpty && p.authority.isEmpty && p.path.take 2 != ['/', '/'] then []
    else ['/', '/'] ++ p.authority ++
      if p.path.isEmpty || p.path.head? == some '/' then [] else ['/']
  (if p.scheme.isEmpty then [] else p.scheme ++ [':']) ++ authority ++ p.path ++
    behind '?' p.query ++ behind '#' p.fragment

/-! ### Parameters -/

/-- Schemes whose last path part may carry parameters behind a semicolon. -/
def schemesWithParameters : List String :=
  ["", "ftp", "hdl", "prospero", "http", "imap", "https", "shttp", "rtsp", "rtsps", "rtspu",
    "sip", "sips", "mms", "sftp", "tel"]

/-- The path without the parameters of its last part, and the parameters. -/
def cutParameters (p : UrlParts) : List Char × List Char :=
  if schemesWithParameters.contains (String.ofList p.scheme) then
    let last := afterLast '/' p.path
    let (name, parameters) := cutOff ';' last
    (p.path.take (p.path.length - last.length) ++ name, parameters)
  else (p.path, [])

end UrlParts
end Montage
