import DepthRaster.CommandLine.Word
import DepthRaster.Numeric.Whole
/-!
# Options

A command line names one mesh and may have options around it. Words are read from left to right. An
option whose value is a word of its own waits for it until the next option or the end, so a fault of
its value shows only there, and an unknown word before that shows first.
-/

namespace DepthRaster.CommandLine

open Numeric

inductive UsageError where
  /-- It asks for a text. -/
  | asked (inquiry : Inquiry)
  | noModel
  | unknownWord
  | noValue
  | badValue
  | repeated
  /-- A flag was given a value. -/
  | unneededValue
deriving DecidableEq, Repr

structure Options where
  model : String
  config : Option String := none
  width : Option UInt64 := none
  height : Option UInt64 := none
  outputDir : Option String := none
  seed : Option UInt64 := none
  orthographic : Bool := false
  wireframe : Bool := false
  singleThreaded : Bool := false
deriving DecidableEq, Repr

structure Scan where
  /-- The options, with an empty path of the mesh. -/
  options : Options := { model := "" }
  model : Option String := none
  /-- The option that was named last, until its value is checked. -/
  waiting : Option (ValueOption × Option String) := none
  /-- Whether nothing is an option any more. -/
  onlyPlain : Bool := false
deriving DecidableEq, Repr

def textValue (value : String) : Except UsageError String := .ok value

def wordValue (value : String) : Except UsageError UInt64 :=
  match Whole.readUnsigned (UInt64.size - 1) value.toList with
  | .ok n => .ok (UInt64.ofNat n)
  | .error _ => .error .badValue

def once {α : Type} (before : Option α) (value : Except UsageError α) :
    Except UsageError (Option α) :=
  match before with
  | some _ => .error .repeated
  | none => value.map some

def flagOnce (before : Bool) : Except UsageError Bool :=
  if before then .error .repeated else .ok true

namespace Options

/-- Sets an option that has a value. -/
def setValue (o : Options) (value : String) : ValueOption → Except UsageError Options
  | .config => return { o with config := ← once o.config (textValue value) }
  | .width => return { o with width := ← once o.width (wordValue value) }
  | .height => return { o with height := ← once o.height (wordValue value) }
  | .outputDir => return { o with outputDir := ← once o.outputDir (textValue value) }
  | .seed => return { o with seed := ← once o.seed (wordValue value) }

def setFlag (o : Options) : Flag → Except UsageError Options
  | .orthographic => return { o with orthographic := ← flagOnce o.orthographic }
  | .wireframe => return { o with wireframe := ← flagOnce o.wireframe }
  | .singleThreaded => return { o with singleThreaded := ← flagOnce o.singleThreaded }

end Options

namespace Scan

def settle (s : Scan) : Except UsageError Scan :=
  match s.waiting with
  | none => .ok s
  | some (_, none) => .error .noValue
  | some (option, some value) =>
    return { s with options := ← s.options.setValue value option, waiting := none }

def takeValue (s : Scan) (option : ValueOption) (value : String) : Except UsageError Scan := do
  let s ← s.settle
  return { s with options := ← s.options.setValue value option }

def takeOption (s : Scan) (option : ValueOption) : Except UsageError Scan := do
  let s ← s.settle
  return { s with waiting := some (option, none) }

def takeFlag (s : Scan) (flag : Flag) : Except UsageError Scan := do
  let s ← s.settle
  return { s with options := ← s.options.setFlag flag }

def takeInquiry (s : Scan) (inquiry : Inquiry) : Except UsageError Scan := do
  let _ ← s.settle
  throw (.asked inquiry)

/-- Takes the path of the mesh. A second path is an unknown word. -/
def takeModel (s : Scan) (path : String) : Except UsageError Scan :=
  if s.model.isSome then .error .unknownWord
  else do
    let s ← s.settle
    return { s with model := some path }

def takeLong (s : Scan) (name : String) (value : Option String) : Except UsageError Scan :=
  match Switch.ofLong? name, value with
  | none, _ => .error .unknownWord
  | some (.value option), some value => s.takeValue option value
  | some (.value option), none => s.takeOption option
  | some (.flag _), some _ => .error .unneededValue
  | some (.inquiry _), some _ => .error .unneededValue
  | some (.flag flag), none => s.takeFlag flag
  | some (.inquiry inquiry), none => s.takeInquiry inquiry

/-- Takes a row of short options. What follows an option that has a value is its value, with or
without an equals sign before it. -/
def takeShort (s : Scan) : List Char → Except UsageError Scan
  | [] => .ok s
  | letter :: rest =>
    match Switch.ofShort? letter, rest with
    | none, _ => .error .unknownWord
    | some (.value option), [] => s.takeOption option
    | some (.value option), '=' :: value => s.takeValue option (String.ofList value)
    | some (.value option), value => s.takeValue option (String.ofList value)
    | some (.flag flag), rest => do takeShort (← s.takeFlag flag) rest
    | some (.inquiry inquiry), _ => s.takeInquiry inquiry

def takePlain (s : Scan) (word : String) : Except UsageError Scan :=
  match s.waiting with
  | some (option, none) => .ok { s with waiting := some (option, some word) }
  | _ => s.takeModel word

def step (s : Scan) (word : String) : Except UsageError Scan :=
  if s.onlyPlain then s.takeModel word
  else match Word.ofString word with
    | .endOfOptions => .ok { s with onlyPlain := true }
    | .long name value => s.takeLong name value
    | .short letters => s.takeShort letters
    | .plain => s.takePlain word

def finish (s : Scan) : Except UsageError Options := do
  let s ← s.settle
  match s.model with
  | none => throw .noModel
  | some model => return { s.options with model }

end Scan

def Options.ofWords (words : List String) : Except UsageError Options := do
  (← words.foldlM Scan.step {}).finish

end DepthRaster.CommandLine
