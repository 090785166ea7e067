import Montage.Json.Basic
import Montage.Number.Basic

/-! # Execution plans

A **plan** is what the engine is to do: its input files, and stages in order.  A stage
holds filter **chains**; a chain reads labelled streams, puts them through its filters, and
writes one labelled stream.  The last stage encodes: it has no chains but names the streams
that go into the output, and the options of the encoder.

Labels and filters are type parameters.  The compiler builds plans over labels and filters
that say what they mean; `Plan.map` turns such a plan into one over texts, and everything
that is written for the engine (`Plan.graph`, `Plan.arguments`) or for people
(`Stage.describe`) is a function of that one.

Seen from outside, a stage reads the labels that its chains read and do not write, and
writes those that its chains write and do not read (`Stage.reads`, `Stage.writes`).
-/
namespace Montage

inductive StageKind where
  | clip
  | soundtrack
  | concat
  | copy
  | mix
  | encode
  deriving DecidableEq, Repr

namespace StageKind

def word : StageKind → String
  | clip => "clip"
  | soundtrack => "soundtrack"
  | concat => "concat"
  | copy => "copy"
  | mix => "mix"
  | encode => "encode"

def all : List StageKind := [clip, soundtrack, concat, copy, mix, encode]

def ofWord? (s : String) : Option StageKind := all.find? fun k => k.word == s

end StageKind

/-- One input file of the engine and the options before it. -/
structure EngineInput where
  path : String
  options : List String
  deriving DecidableEq, Repr

/-- Streams read, filters, stream written; a source reads nothing. -/
structure Chain (ℓ φ : Type) where
  inputs : List ℓ
  filters : List φ
  output : ℓ
  deriving DecidableEq, Repr

structure Stage (ℓ φ : Type) where
  kind : StageKind
  name : String
  chains : List (Chain ℓ φ)
  /-- Streams that go into the output; for the encoder only. -/
  maps : List ℓ
  options : List String
  deriving DecidableEq, Repr

structure Plan (ℓ φ : Type) where
  inputs : List EngineInput
  stages : List (Stage ℓ φ)
  outputName : String
  /-- Length of the output in seconds. -/
  duration : Number
  warnings : List String
  deriving DecidableEq, Repr

/-- A plan whose labels and filters are texts. -/
abbrev TextPlan := Plan String String

section Map
variable {ℓ ℓ' φ φ' : Type} (f : ℓ → ℓ') (g : φ → φ')

def Chain.map (c : Chain ℓ φ) : Chain ℓ' φ' := ⟨c.inputs.map f, c.filters.map g, f c.output⟩

def Stage.map (s : Stage ℓ φ) : Stage ℓ' φ' :=
  ⟨s.kind, s.name, s.chains.map (Chain.map f g), s.maps.map f, s.options⟩

def Plan.map (p : Plan ℓ φ) : Plan ℓ' φ' :=
  ⟨p.inputs, p.stages.map (Stage.map f g), p.outputName, p.duration, p.warnings⟩

end Map

namespace Stage
variable {ℓ φ : Type} [DecidableEq ℓ]

/-- Labels that the stage takes from inputs or from other stages. -/
def reads (s : Stage ℓ φ) : List ℓ :=
  if s.kind = .encode then s.maps
  else
    let written := s.chains.map Chain.output
    s.chains.flatMap fun c => c.inputs.filter fun l => !written.contains l

/-- Labels that the stage hands on. -/
def writes (s : Stage ℓ φ) : List ℓ :=
  let used := s.chains.flatMap Chain.inputs
  (s.chains.map Chain.output).filter fun l => !used.contains l

end Stage

/-- The stages of a kind. -/
def Plan.stagesOf {ℓ φ : Type} (p : Plan ℓ φ) (k : StageKind) : List (Stage ℓ φ) :=
  p.stages.filter fun s => s.kind == k

/-- The first stage that encodes. -/
def Plan.encoder? {ℓ φ : Type} (p : Plan ℓ φ) : Option (Stage ℓ φ) := (p.stagesOf .encode).head?

/-! ### Texts of a plan -/

/-- A label between brackets. -/
def bracketed (label : String) : String := "[" ++ label ++ "]"

/-- Text of a chain: the labels read, the filters with commas, the label written. -/
def Chain.render (c : Chain String String) : String :=
  String.join (c.inputs.map bracketed) ++ ",".intercalate c.filters ++ bracketed c.output

/-- The filter graph: all chains, one a line. -/
def Plan.graph (p : TextPlan) : String :=
  ";\n".intercalate (p.stages.flatMap fun s => s.chains.map Chain.render)

/-- What a stage does, for people to read. -/
def Stage.describe (s : Stage String String) : Json :=
  .ofFields ([("kind", .str s.kind.word), ("name", .str s.name),
      ("inputs", .arr (s.reads.map .str)), ("outputs", .arr (s.writes.map .str))] ++
    (if s.chains.isEmpty then [] else [("filters", .arr (s.chains.map fun c => .str c.render))]) ++
    (if s.options.isEmpty then [] else [("options", .arr (s.options.map .str))]))

def Plan.describe (p : TextPlan) : Json := .arr (p.stages.map Stage.describe)

/-- Arguments of one input. -/
def EngineInput.arguments (i : EngineInput) : List String := i.options ++ ["-i", i.path]

/-- Command line of the engine: inputs, graph, mapped streams, options, output.  A plan
without an encoder has none. -/
def Plan.arguments? (p : TextPlan) (program : String) (extra : List String) :
    Option (List String) :=
  p.encoder?.map fun e =>
    [program, "-y", "-hide_banner", "-nostdin"] ++ p.inputs.flatMap EngineInput.arguments ++
      ["-filter_complex", p.graph] ++ e.maps.flatMap (fun l => ["-map", bracketed l]) ++
      e.options ++ extra ++ [p.outputName]

end Montage
