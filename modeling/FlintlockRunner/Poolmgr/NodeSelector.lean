import FlintlockRunner.Base.Assoc
import FlintlockRunner.Config.Accepted
import FlintlockRunner.Poolmgr.ClaimConvert

/-!
# What a Pool's node selector selects

`nodeSelector` fills one map with the Profile's architecture and its Host
selector, whose keys get this project's domain when they have none. A key that is
the architecture's label, or two keys that the domain makes one, meet in that map
and the last write stays: the selector then drops a requirement, and which one
depends on the order in which Go walks the Host selector
(`requirement_displaced`). Where no two requirements disagree, a Node is selected
when it meets every one of them, in any order (`nodeSelector_selects_iff`).
-/

namespace FlintlockRunner.Poolmgr

open Config (Profile)

/-- The key a Host selector's key is looked for under on a Node. -/
def nodeKey (key : String) : String :=
  if Strings.contains key "/" then key else labelDomain ++ key

/-- What the Profile asks of a Node's labels: its architecture and every entry of
its Host selector. -/
def requirements (profile : Profile) : List (String × String) :=
  (labelArch, profile.arch.text) :: profile.hostSelector.entries.map fun e => (nodeKey e.1, e.2)

/-- A Node with these labels satisfies the selector. -/
def Selects (selector labels : StringMap) : Prop :=
  ∀ key value, selector.lookup key = some value → labels.lookup key = some value

variable {profile : Profile}

theorem nodeSelector_eq_insertAll (harch : profile.arch.text ≠ "") :
    nodeSelector profile = Assoc.insertAll ∅ (requirements profile) := by
  simp only [nodeSelector, if_neg harch, requirements, Assoc.insertAll, List.foldl_cons,
    List.foldl_map]
  rfl

theorem selects_nodeSelector (harch : profile.arch.text ≠ "")
    (hagree : Assoc.Agree (requirements profile)) (labels : StringMap) :
    Selects (nodeSelector profile) labels ↔
      ∀ r ∈ requirements profile, labels.lookup r.1 = some r.2 := by
  simp only [Selects, nodeSelector_eq_insertAll harch, Assoc.lookup_insertAll_iff hagree,
    Prod.forall]

theorem mem_requirements_perm {selector : StringMap}
    (hperm : selector.entries.Perm profile.hostSelector.entries) {r : String × String} :
    r ∈ requirements { profile with hostSelector := selector } ↔ r ∈ requirements profile := by
  simp only [requirements, List.mem_cons, List.mem_map, hperm.mem_iff]

/-- In every order of the Host selector, a Node is selected when its architecture
is the Profile's and it has the value of every entry: exactly when no two of these
requirements disagree about a label. -/
theorem nodeSelector_selects_iff (harch : profile.arch.text ≠ "") :
    (∀ selector : StringMap, selector.entries.Perm profile.hostSelector.entries →
      ∀ labels, Selects (nodeSelector { profile with hostSelector := selector }) labels ↔
        labels.lookup labelArch = some profile.arch.text ∧
          ∀ e ∈ profile.hostSelector.entries, labels.lookup (nodeKey e.1) = some e.2) ↔
      Assoc.Agree (requirements profile) := by
  have hmeets : ∀ labels : StringMap,
      (labels.lookup labelArch = some profile.arch.text ∧
          ∀ e ∈ profile.hostSelector.entries, labels.lookup (nodeKey e.1) = some e.2) ↔
        ∀ r ∈ requirements profile, labels.lookup r.1 = some r.2 := by
    intro labels
    simp only [requirements, List.forall_mem_cons, List.forall_mem_map]
  simp only [hmeets]
  constructor
  · -- The selector, read as labels, satisfies itself.
    intro h p hp q hq hkey
    have hall := (h profile.hostSelector (List.Perm.refl _) (nodeSelector profile)).mp
      fun _ _ hlookup => hlookup
    have hboth := (hall p hp).symm.trans (hkey ▸ hall q hq)
    exact Option.some.inj hboth
  · intro hagree selector hperm labels
    have hagree' : Assoc.Agree (requirements { profile with hostSelector := selector }) :=
      fun p hp q hq => hagree p ((mem_requirements_perm hperm).mp hp) q
        ((mem_requirements_perm hperm).mp hq)
    have hselects := @selects_nodeSelector { profile with hostSelector := selector } harch hagree'
      labels
    simpa only [mem_requirements_perm hperm] using hselects

/-- A Profile with a Host selector of its own. -/
def selecting (selector : StringMap) : Profile :=
  { Config.smallProfile with arch := .amd64, hostSelector := selector }

/-- A Host selector that asks for a rack and, under a domain of its own, a zone. -/
theorem nodeSelector_selects_rack :
    let profile := selecting
      (AList.insert "rack" "r1" (AList.singleton "topology.kubernetes.io/zone" "b"))
    ∀ selector : StringMap, selector.entries.Perm profile.hostSelector.entries →
      ∀ labels, Selects (nodeSelector { profile with hostSelector := selector }) labels ↔
        labels.lookup labelArch = some profile.arch.text ∧
          ∀ e ∈ profile.hostSelector.entries, labels.lookup (nodeKey e.1) = some e.2 :=
  (nodeSelector_selects_iff (by decide)).mpr (by decide +kernel)

/-- An accepted Profile for amd64 whose Host selector names the architecture's
label takes a Node of arm64. And two entries that the domain makes one leave the
value of whichever Go walks last. -/
theorem requirement_displaced :
    let arm : StringMap := AList.singleton labelArch "arm64"
    let key := "gitlab-runner.flintlock.dev/rack"
    let keyLast : StringMap := AList.insert "rack" "r1" (AList.singleton key "r2")
    let keyFirst : StringMap := AList.insert key "r2" (AList.singleton "rack" "r1")
    Config.Accepted (Config.defaulted (Config.claimFile [selecting arm])) ∧
      (Selects (nodeSelector (selecting arm)) arm ∧
        arm.lookup labelArch ≠ some (selecting arm).arch.text) ∧
      keyLast.entries.Perm keyFirst.entries ∧
      (nodeSelector (selecting keyLast)).lookup key = some "r2" ∧
      (nodeSelector (selecting keyFirst)).lookup key = some "r1" := by
  refine ⟨Config.claimFile_accepted_of (by decide) (by decide +kernel), ⟨?_, by decide⟩, ?_⟩
  · exact fun _ _ hlookup => hlookup
  · decide +kernel

end FlintlockRunner.Poolmgr
