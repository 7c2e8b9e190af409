/-!
# Words of a command line

A word is a mark after which nothing is an option, a long option, a row of short options, or plain.
A long option may have a value after an equals sign. A lone dash is plain.
-/

namespace DepthRaster.CommandLine

inductive Word where
  | endOfOptions
  | long (name : String) (value : Option String)
  | short (letters : List Char)
  | plain
deriving DecidableEq, Repr

def Word.ofLong (cs : List Char) : Word :=
  let name := String.ofList (cs.takeWhile (· ≠ '='))
  match cs.dropWhile (· ≠ '=') with
  | [] => .long name none
  | _ :: value => .long name (some (String.ofList value))

def Word.ofString (word : String) : Word :=
  match word.toList with
  | ['-'] => .plain
  | ['-', '-'] => .endOfOptions
  | '-' :: '-' :: cs => .ofLong cs
  | '-' :: letters => .short letters
  | _ => .plain

inductive ValueOption where
  | config
  | width
  | height
  | outputDir
  | seed
deriving DecidableEq, Repr

inductive Flag where
  | orthographic
  | wireframe
  | singleThreaded
deriving DecidableEq, Repr

/-- The options that ask for a text instead of a run. -/
inductive Inquiry where
  | help
  | version
deriving DecidableEq, Repr

inductive Switch where
  | value (option : ValueOption)
  | flag (flag : Flag)
  | inquiry (inquiry : Inquiry)
deriving DecidableEq, Repr

namespace Switch

/-- The option of a long name. Names are not shortened. -/
def ofLong? : String → Option Switch
  | "config" => some (value .config)
  | "width" => some (value .width)
  | "height" => some (value .height)
  | "output-dir" => some (value .outputDir)
  | "seed" => some (value .seed)
  | "orthographic" => some (flag .orthographic)
  | "wireframe" => some (flag .wireframe)
  | "single-threaded" => some (flag .singleThreaded)
  | "help" => some (inquiry .help)
  | "version" => some (inquiry .version)
  | _ => none

def ofShort? : Char → Option Switch
  | 'c' => some (value .config)
  | 'o' => some (value .outputDir)
  | 'h' => some (inquiry .help)
  | 'V' => some (inquiry .version)
  | _ => none

end Switch

end DepthRaster.CommandLine
