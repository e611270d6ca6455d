import Manifests.Library.Json
import Manifests.Library.Text

/-! `kf_parse.py`: it collects the images of a Kubeflow configuration, also from the JSON texts
inside it. -/
namespace Manifests.KfParse
open Library

inductive Failure where
  | typeError
  | recursionError
  deriving Repr, DecidableEq

def imageKey : String := "image"

/-- The characters that `\s` matches. -/
def isSpace (c : Char) : Bool :=
  c.toNat ∈ [0x20, 0x85, 0xA0, 0x1680, 0x2028, 0x2029, 0x202F, 0x205F, 0x3000] ||
    (9 ≤ c.toNat && c.toNat ≤ 13) || (0x1C ≤ c.toNat && c.toNat ≤ 0x1F) ||
    (0x2000 ≤ c.toNat && c.toNat ≤ 0x200A)

def isLetter (c : Char) : Bool := ('a' ≤ c && c ≤ 'z') || ('A' ≤ c && c ≤ 'Z')

/-- The group of `image:\s+([a-zA-Z]+.*)`, matched at the start of a text. -/
def yamlImageAt (cs : List Char) : Option (List Char) :=
  if "image:".toList.isPrefixOf cs then
    let behind := cs.drop "image:".toList.length
    if behind.takeWhile isSpace = [] then none
    else
      match behind.dropWhile isSpace with
      | c :: rest => if isLetter c then some ((c :: rest).takeWhile (· ≠ '\n')) else none
      | [] => none
  else none

/-- The group of the first match in a text. -/
def yamlImage (text : String) : Option String :=
  (text.toList.tails.findSome? yamlImageAt).map String.ofList

/-- The results of a loop, in order. -/
def collect {α : Type} (f : α → Except Failure (List String)) : List α → Except Failure (List String)
  | [] => .ok []
  | a :: as => return (← f a) ++ (← collect f as)

section
-- what `format` prints for a value
variable (format : Value → String)

/-- The values of the keys `defaultImageVersion` and `defaultGpuImageVersion`, as far as they
are there. -/
def defaultVersions (inpDict : Dict) : List Value :=
  ["defaultImageVersion", "defaultGpuImageVersion"].filterMap (Dict.get inpDict)

/-- `concat_image_name_with_tag` for a string: a name without a tag gets those of its object. -/
def withTag (inpDict : Dict) (value : String) : List String :=
  if Text.contains ":" value then [value]
  else (defaultVersions inpDict).map fun version => value ++ ":" ++ format version

def concatImageNameWithTag (inpDict : Dict) (value : Value) : Except Failure (List String) :=
  match value with
  | .str s => .ok (withTag format inpDict s)
  | _ => .error .typeError

/-- `parse_json_images`, with the function that it calls on an object. -/
def parseJsonImages (extract : Value → Except Failure (List String)) (searchKey : String)
    (textData : Value) : Except Failure (List String) :=
  match textData with
  | .str text =>
    if Text.contains searchKey text then
      match Json.loads text with
      | some (.dict j) => extract (.dict j)
      | some _ => .ok []
      | none => .ok (yamlImage text).toList
    else .ok []
  | _ => .ok []

/-- The inner loop, over an object that is the value of a key. -/
def nestedImages (extract : Value → Except Failure (List String)) (value : Dict) :
    String × Value → Except Failure (List String)
  | (_, .dict v2) => extract (.dict v2)
  | (k2, v2) =>
    if k2 = "image" then concatImageNameWithTag format value v2
    else parseJsonImages extract imageKey v2

/-- The outer loop. -/
def entryImages (extract : Value → Except Failure (List String)) (inpDict : Dict) :
    String × Value → Except Failure (List String)
  | (_, .list value) => collect extract value
  | (_, .dict value) => collect (nestedImages format extract value) value
  | (key, .str value) =>
    if key = "image" then concatImageNameWithTag format inpDict (.str value)
    else parseJsonImages extract imageKey (.str value)
  | _ => .ok []

/-- `extract_images_recursively`, within a limit on the depth of the calls. -/
def extractImagesRecursively : Nat → Value → Except Failure (List String)
  | 0, _ => .error .recursionError
  | limit + 1, .dict inpDict =>
    collect (entryImages format (extractImagesRecursively limit) inpDict) inpDict
  | _ + 1, _ => .ok []

/-- `process_json_file`, on the text of the file. A text that is no JSON has no images. -/
def processJsonFile (limit : Nat) (text : String) : Except Failure (List String) :=
  match Json.loads text with
  | some jsonData => return (← extractImagesRecursively format limit jsonData).eraseDups
  | none => .ok []

/-- The lines that `main` prints for a file; an exception ends it before the first. -/
def mainOutput (limit : Nat) (text : String) : List String :=
  match processJsonFile format limit text with
  | .ok images => images.flatMap (Text.split "\n")
  | .error _ => []

end
end Manifests.KfParse
