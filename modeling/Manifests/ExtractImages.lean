import Manifests.Cluster

/-! `extract_images.py`: it scans the workloads beside a kustomization and writes their images
into its `images` list. -/
namespace Manifests.ExtractImages
open Library

/-- Compared with a kind in lower case. -/
def acceptedKinds : List String :=
  ["statefulset", "deployment", "daemonSet", "replicaset", "job", "cronjob"]

/-- An image as `image_from_string` splits it. -/
structure Img where
  name : String
  tag : String
  digest : String
  deriving Repr, DecidableEq

/-- An entry of `images`, with the keys it has. -/
structure Image where
  name : String
  newName : Option String
  newTag : Option String
  digest : Option String
  deriving Repr, DecidableEq

/-- `s.rsplit(c, 1)`, for a string that has a `c`. -/
def rsplit (c : Char) (s : String) : String × String :=
  match Text.splitLast c s.toList with
  | some (before, after) => (String.ofList before, String.ofList after)
  | none => (s, "")

def imageFromString (imgStr : String) : Img :=
  let imgStr := if ':' ∈ imgStr.toList then imgStr else imgStr ++ ":latest"
  if '@' ∈ imgStr.toList then
    let (name, digest) := rsplit '@' imgStr
    { name, tag := "", digest }
  else
    let (name, tag) := rsplit ':' imgStr
    { name, tag, digest := "" }

/-- `if img.get(key, new): img[key] = img.get(key, new)`. -/
def getOrSet (value : Option String) (new : String) : Option String :=
  if value.getD new ≠ "" then some (value.getD new) else value

def appendOrUpdate : List Image → Img → List Image
  | [], newImg =>
    [{ name := newImg.name, newName := some newImg.name,
       newTag := getOrSet none newImg.tag, digest := getOrSet none newImg.digest }]
  | img :: imgList, newImg =>
    if img.name = newImg.name then
      { img with newName := some (img.newName.getD newImg.name),
                 newTag := getOrSet img.newTag newImg.tag,
                 digest := getOrSet img.digest newImg.digest } :: imgList
    else img :: appendOrUpdate imgList newImg

/-- `v[key]`. -/
def getItem (v : Value) (key : String) : Except PyError Value :=
  match v with
  | .dict d =>
    match Dict.get d key with
    | some w => .ok w
    | none => .error (.keyError key)
  | _ => .error .typeError

/-- What `for c in v` runs over. -/
def iterate : Value → Except PyError (List Value)
  | .list items => .ok items
  | .dict d => .ok (d.map fun entry => .str entry.1)
  | .str s => .ok (s.toList.map fun c => .str (String.singleton c))
  | _ => .error .typeError

/-- A `KeyError` goes on to the next round of the loop. -/
def orContinue {α : Type} : Except PyError α → Except PyError (Option α)
  | .ok a => .ok (some a)
  | .error (.keyError _) => .ok none
  | .error e => .error e

/-- `r["spec"]["template"]["spec"]["containers"]`. -/
def containersOf (r : Value) : Except PyError Value := do
  getItem (← getItem (← getItem (← getItem r "spec") "template") "spec") "containers"

/-- The images of a list of containers. -/
def containerImages : List Value → Except PyError (List String)
  | [] => .ok []
  | c :: containers => do
    match ← orContinue (getItem c "image") with
    | none => containerImages containers
    | some (.str imgStr) => return imgStr :: (← containerImages containers)
    | some _ => .error .typeError

/-- The images of one resource, when it is of an accepted kind. -/
def resourceImages (r : Value) : Except PyError (List String) :=
  match r with
  | .dict d =>
    match (Dict.get d "kind").getD (.str "") with
    | .str kind =>
      if kind.toLower ∈ acceptedKinds then do
        match ← orContinue (containersOf r) with
        | none => return []
        | some containers => containerImages (← iterate containers)
      else .ok []
    | _ => .error .attributeError
  | _ => .ok []

/-- The images of all resources, in the order of the scan. -/
def scannedImages : List Value → Except PyError (List String)
  | [] => .ok []
  | r :: resources => return (← resourceImages r) ++ (← scannedImages resources)

/-- A file beside `kustomization.yaml`, with its documents. -/
structure ResourceFile where
  name : String
  documents : List Value

def isResourceFile (name : String) : Bool :=
  name ≠ "kustomization.yaml" && name ≠ "params.yaml" && name.endsWith ".yaml"

/-- The documents of the local resource files. -/
def localResources (files : List ResourceFile) : List Value :=
  (files.filter fun f => isResourceFile f.name).flatMap (·.documents)

/-- `scan_kustomization_for_images`: from the `images` list of the kustomization and the files
beside it to the list that is written. A scan that ends with an exception writes nothing, so that
the images can be collected first. -/
def scanKustomizationForImages (images : List Image) (files : List ResourceFile) :
    Except PyError (List Image) := do
  let scanned ← scannedImages (localResources files)
  return scanned.foldl (fun imgList s => appendOrUpdate imgList (imageFromString s)) images

end Manifests.ExtractImages
