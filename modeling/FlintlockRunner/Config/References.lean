import FlintlockRunner.Base.Strings
import FlintlockRunner.Config.Types

/-!
# What a Profile refers to (`config/image.go`, `config/hosts.go`)

The images of a Profile, as far as validation parses a reference, and the Hosts
of an Inventory that can carry its Pool.
-/

namespace FlintlockRunner.Config

open Strings

/-! ## `image.go` -/

structure ImageRef where
  repository : String
  tag : String
  digest : String
  deriving DecidableEq, Repr

/-- `ImageRef.Pinned`. -/
def ImageRef.pinned (r : ImageRef) : Bool := r.digest ≠ "" || r.tag ≠ ""

/-- The digest part of `ParseImageRef`: the reference in front of the last `@`
and the digest behind it, which names an algorithm. -/
def cutDigest (ref : String) : Except String (List Char × List Char) :=
  match cutLast '@' ref.toList with
  | none => .ok (ref.toList, [])
  | some (repository, digest) =>
    match cut ':' digest with
    | some (_ :: _, _ :: _) => .ok (repository, digest)
    | _ => .error ("image reference " ++ quote ref ++ " has a malformed digest")

/-- The tag part of `ParseImageRef`: a colon behind the last slash; one in front
of it belongs to the registry's port. -/
def cutTag (ref : String) (repository : List Char) : Except String (List Char × List Char) :=
  match cutLast ':' repository with
  | none => .ok (repository, [])
  | some (name, tag) =>
    if '/' ∈ tag then .ok (repository, [])
    else if tag = [] then .error ("image reference " ++ quote ref ++ " has an empty tag")
    else .ok (name, tag)

def parseImageRef (text : String) : Except String ImageRef := do
  let ref := trimSpace text
  if ref = "" then .error "empty image reference"
  else
    let (named, digest) ← cutDigest ref
    let (repository, tag) ← cutTag ref named
    if repository = [] then .error ("image reference " ++ quote ref ++ " has no repository")
    else .ok ⟨String.ofList repository, String.ofList tag, String.ofList digest⟩

/-- `profileImage`: an image reference and the field it came from. -/
structure ProfileImage where
  field : String
  ref : String
  deriving DecidableEq, Repr

variable (p : Profile)

/-- `Profile.images`, all the references of a Profile: not the image names that
map Jobs onto it. -/
def Profile.imageRefs (field : String) : List ProfileImage :=
  [⟨field ++ ".kernel.image", p.kernel.image⟩, ⟨field ++ ".rootfs", p.rootFS⟩]
  ++ (p.initrd.toList.map fun i => ⟨field ++ ".initrd.image", i.image⟩)
  ++ (p.additionalVolumes.zipIdx.map fun v =>
    ⟨index (field ++ ".additional_volumes") v.2 ++ ".image", v.1.image⟩)

/-! ## `hosts.go` -/

/-- The Host has the architecture and every label the Profile asks for. -/
def matchesHost (h : HostEntry) : Bool :=
  p.arch = h.arch && p.hostSelector.entries.all fun e => h.labels.lookup e.1 = some e.2

def selectHosts (inventory : List HostEntry) : List String :=
  (inventory.filter (matchesHost p)).map HostEntry.name

end FlintlockRunner.Config
