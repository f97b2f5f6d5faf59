import Mathlib.Logic.Basic

/-!
# Redaction (`config/show.go`)

`redactValue` walks a value by reflection and puts the marker into every Secret
that it reaches and may set, so that a Secret added to the schema later is redacted
without a change to it. What it reaches and may set depends on how a value was come
by: `reflect` lets a value be set only if it has an address and no unexported field
was used to get to it (`Flag`).

`Covered` says which trees this is enough for. A Secret is left as it is

- in a map whose elements are not Secrets themselves, however deep, and in a map's
  keys: the walk does not go into either;
- directly in an interface, or in a struct or an array that is, since these have no
  address there;
- behind an unexported field; and a map of Secrets there makes `SetMapIndex` panic.

Values are trees: no two pointers lead to one variable.
-/

namespace FlintlockRunner.Config.Show

open List Option

/-! ## Values -/

/-- What `reflect` looks at in a struct's field. -/
structure Field where
  exported : Bool
  embedded : Bool
  deriving DecidableEq, Repr

/-- A value as `reflect` sees it. A nil slice or map is one without elements; `other`
is a value of a kind that holds no other value. -/
inductive Value
  | secret (s : String)
  | string (s : String)
  | other (n : Int)
  | null
  | pointer (v : Value)
  | iface (v : Value)
  | struct (fields : List (Field × Value))
  | slice (elems : List Value)
  | array (elems : List Value)
  /-- A map whose element type is `Secret`. -/
  | secretMap (entries : List (Value × String))
  /-- A map with any other element type. -/
  | map (entries : List (Value × Value))

/-- Induction over a tree, with what holds of every value in a list. -/
@[elab_as_elim, induction_eliminator]
theorem Value.induct {motive : Value → Prop}
    (secret : ∀ s, motive (.secret s)) (string : ∀ s, motive (.string s))
    (other : ∀ n, motive (.other n)) (null : motive .null)
    (pointer : ∀ v, motive v → motive (.pointer v))
    (iface : ∀ v, motive v → motive (.iface v))
    (struct : ∀ fields, (∀ x ∈ fields, motive x.2) → motive (.struct fields))
    (slice : ∀ elems, (∀ v ∈ elems, motive v) → motive (.slice elems))
    (array : ∀ elems, (∀ v ∈ elems, motive v) → motive (.array elems))
    (secretMap : ∀ entries, (∀ x ∈ entries, motive x.1) → motive (.secretMap entries))
    (map : ∀ entries, (∀ x ∈ entries, motive x.1 ∧ motive x.2) → motive (.map entries))
    (v : Value) : motive v :=
  @Value.rec motive (fun fields => ∀ x ∈ fields, motive x.2) (fun elems => ∀ v ∈ elems, motive v)
    (fun entries => ∀ x ∈ entries, motive x.1)
    (fun entries => ∀ x ∈ entries, motive x.1 ∧ motive x.2)
    (fun x => motive x.2) (fun x => motive x.1) (fun x => motive x.1 ∧ motive x.2)
    secret string other null pointer iface struct slice array secretMap map
    (forall_mem_nil _) (fun _ _ h hs => forall_mem_cons.mpr ⟨h, hs⟩)
    (forall_mem_nil _) (fun _ _ h hs => forall_mem_cons.mpr ⟨h, hs⟩)
    (forall_mem_nil _) (fun _ _ h hs => forall_mem_cons.mpr ⟨h, hs⟩)
    (forall_mem_nil _) (fun _ _ h hs => forall_mem_cons.mpr ⟨h, hs⟩)
    (fun _ _ h => h) (fun _ _ h => h) (fun _ _ hk hv => ⟨hk, hv⟩) v

/-! ## How a value was come by -/

/-- `flagRO`: whether an unexported field was used to get to a value, and whether only
as the embedded struct that the value is a field of. -/
inductive ReadOnly
  | no
  | embed
  | sticky
  deriving DecidableEq, Repr

/-- What is left of it in a value that is not a field. -/
def ReadOnly.ro : ReadOnly → ReadOnly
  | .no => .no
  | .embed | .sticky => .sticky

/-- `flagAddr` and `flagRO` of a `reflect.Value`. -/
structure Flag where
  addr : Bool
  ro : ReadOnly
  deriving DecidableEq, Repr

namespace Flag

/-- A value that can be set: what `Redacted` starts from. -/
def settable : Flag := ⟨true, .no⟩

variable (fl : Flag)

def canSet : Bool := fl.addr && fl.ro = .no

/-- `Elem` of a pointer. -/
def deref : Flag := ⟨true, fl.ro⟩

/-- `Elem` of an interface. -/
def unpack : Flag := ⟨false, fl.ro.ro⟩

def field (f : Field) : Flag :=
  ⟨fl.addr, if fl.ro = .sticky then .sticky else
    if f.exported then .no else if f.embedded then .embed else .sticky⟩

/-- `Index` of a slice. -/
def sliceIndex : Flag := ⟨true, fl.ro.ro⟩

/-- `Index` of an array. -/
def arrayIndex : Flag := ⟨fl.addr, fl.ro.ro⟩

end Flag

/-! ## The walk -/

def Redacted : String := "[REDACTED]"

/-- `Secret.String`. -/
def secretString (s : String) : String := if s = "" then "" else Redacted

/-- The loop of `redactValue` over a map of Secrets; `none` where `SetMapIndex`
panics. -/
def setMapIndexes (fl : Flag) : List (Value × String) → Option (List (Value × String))
  | [] => some []
  | (k, s) :: entries =>
    if s ≠ "" ∧ fl.ro ≠ .no then none
    else (setMapIndexes fl entries).map ((k, secretString s) :: ·)

mutual

/-- `redactValue`; `none` where it panics. -/
def redactValue (fl : Flag) : Value → Option Value
  | .pointer v => (redactValue fl.deref v).map .pointer
  | .iface v => (redactValue fl.unpack v).map .iface
  | .struct fields => (redactFields fl fields).map .struct
  | .slice elems => (redactElems fl.sliceIndex elems).map .slice
  | .array elems => (redactElems fl.arrayIndex elems).map .array
  | .map entries => some (.map entries)
  | .secretMap entries => (setMapIndexes fl entries).map .secretMap
  | .secret s => some (if fl.canSet ∧ s ≠ "" then .secret Redacted else .secret s)
  | .string s => some (.string s)
  | .other n => some (.other n)
  | .null => some .null

/-- Its loop over the fields of a struct. -/
def redactFields (fl : Flag) : List (Field × Value) → Option (List (Field × Value))
  | [] => some []
  | (f, v) :: fields => do
    let v' ← redactValue (fl.field f) v
    let fields' ← redactFields fl fields
    return (f, v') :: fields'

/-- Its loop over the elements of a slice or an array. -/
def redactElems (fl : Flag) : List Value → Option (List Value)
  | [] => some []
  | v :: elems => do
    let v' ← redactValue fl v
    let elems' ← redactElems fl elems
    return v' :: elems'

end

/-! ## Every Secret of a tree -/

mutual

/-- Whether all the Secrets of a tree meet `p`, wherever they are. -/
def Value.everySecret (p : String → Bool) : Value → Bool
  | .secret s => p s
  | .pointer v | .iface v => v.everySecret p
  | .struct fields => everyField p fields
  | .slice elems | .array elems => everyElem p elems
  | .map entries => everyEntry p entries
  | .secretMap entries => everySecretEntry p entries
  | .string _ | .other _ | .null => true

def everyField (p : String → Bool) : List (Field × Value) → Bool
  | [] => true
  | (_, v) :: fields => v.everySecret p && everyField p fields

def everyElem (p : String → Bool) : List Value → Bool
  | [] => true
  | v :: elems => v.everySecret p && everyElem p elems

def everyEntry (p : String → Bool) : List (Value × Value) → Bool
  | [] => true
  | (k, v) :: entries => k.everySecret p && v.everySecret p && everyEntry p entries

def everySecretEntry (p : String → Bool) : List (Value × String) → Bool
  | [] => true
  | (k, s) :: entries => k.everySecret p && p s && everySecretEntry p entries

end

mutual

/-- Put `g s` into every Secret in the place of `s`. -/
def Value.mapSecrets (g : String → String) : Value → Value
  | .secret s => .secret (g s)
  | .pointer v => .pointer (v.mapSecrets g)
  | .iface v => .iface (v.mapSecrets g)
  | .struct fields => .struct (mapFields g fields)
  | .slice elems => .slice (mapElems g elems)
  | .array elems => .array (mapElems g elems)
  | .map entries => .map (mapEntries g entries)
  | .secretMap entries => .secretMap (mapSecretEntries g entries)
  | .string s => .string s
  | .other n => .other n
  | .null => .null

def mapFields (g : String → String) : List (Field × Value) → List (Field × Value)
  | [] => []
  | (f, v) :: fields => (f, v.mapSecrets g) :: mapFields g fields

def mapElems (g : String → String) : List Value → List Value
  | [] => []
  | v :: elems => v.mapSecrets g :: mapElems g elems

def mapEntries (g : String → String) : List (Value × Value) → List (Value × Value)
  | [] => []
  | (k, v) :: entries => (k.mapSecrets g, v.mapSecrets g) :: mapEntries g entries

def mapSecretEntries (g : String → String) : List (Value × String) → List (Value × String)
  | [] => []
  | (k, s) :: entries => (k.mapSecrets g, g s) :: mapSecretEntries g entries

end

/-- A Secret that shows nothing. -/
def shown (s : String) : Bool := s = "" || s = Redacted

/-- What a tree holds beside its Secrets. -/
def Value.blanked (v : Value) : Value := v.mapSecrets fun _ => ""

/-- Two trees that differ only in the contents of Secrets that are not empty. -/
def Value.Alike (v w : Value) : Prop := v.mapSecrets secretString = w.mapSecrets secretString

/-! ## What the walk covers -/

/-- The keys and values of a map of Secrets that the walk need not touch, or may. -/
def coveredEntries (fl : Flag) (entries : List (Value × String)) : Bool :=
  entries.all fun p => p.1.everySecret shown && (fl.ro = .no || p.2 = "")

mutual

/-- The walk can set every Secret of a tree that shows something. -/
def Value.covered (fl : Flag) : Value → Bool
  | .secret s => fl.canSet || shown s
  | .pointer v => v.covered fl.deref
  | .iface v => v.covered fl.unpack
  | .struct fields => coveredFields fl fields
  | .slice elems => coveredElems fl.sliceIndex elems
  | .array elems => coveredElems fl.arrayIndex elems
  | .map entries => everyEntry shown entries
  | .secretMap entries => coveredEntries fl entries
  | .string _ | .other _ | .null => true

def coveredFields (fl : Flag) : List (Field × Value) → Bool
  | [] => true
  | (f, v) :: fields => v.covered (fl.field f) && coveredFields fl fields

def coveredElems (fl : Flag) : List Value → Bool
  | [] => true
  | v :: elems => v.covered fl && coveredElems fl elems

end

/-! ## Lists of values -/

section

variable (p : String → Bool) (g : String → String) (fl : Flag)

theorem everyField_eq (fields : List (Field × Value)) :
    everyField p fields = fields.all fun x => x.2.everySecret p := by
  induction fields with
  | nil => rw [everyField, all_nil]
  | cons x fields ih => rw [everyField, ih, all_cons]

theorem everyElem_eq (elems : List Value) :
    everyElem p elems = elems.all fun v => v.everySecret p := by
  induction elems with
  | nil => rw [everyElem, all_nil]
  | cons v elems ih => rw [everyElem, ih, all_cons]

theorem everyEntry_eq (entries : List (Value × Value)) :
    everyEntry p entries = entries.all fun x => x.1.everySecret p && x.2.everySecret p := by
  induction entries with
  | nil => rw [everyEntry, all_nil]
  | cons x entries ih => rw [everyEntry, ih, all_cons]

theorem everySecretEntry_eq (entries : List (Value × String)) :
    everySecretEntry p entries = entries.all fun x => x.1.everySecret p && p x.2 := by
  induction entries with
  | nil => rw [everySecretEntry, all_nil]
  | cons x entries ih => rw [everySecretEntry, ih, all_cons]

theorem mapFields_eq (fields : List (Field × Value)) :
    mapFields g fields = fields.map fun x => (x.1, x.2.mapSecrets g) := by
  induction fields with
  | nil => rw [mapFields, map_nil]
  | cons x fields ih => rw [mapFields, ih, map_cons]

theorem mapElems_eq (elems : List Value) :
    mapElems g elems = elems.map fun v => v.mapSecrets g := by
  induction elems with
  | nil => rw [mapElems, map_nil]
  | cons v elems ih => rw [mapElems, ih, map_cons]

theorem mapEntries_eq (entries : List (Value × Value)) :
    mapEntries g entries = entries.map fun x => (x.1.mapSecrets g, x.2.mapSecrets g) := by
  induction entries with
  | nil => rw [mapEntries, map_nil]
  | cons x entries ih => rw [mapEntries, ih, map_cons]

theorem mapSecretEntries_eq (entries : List (Value × String)) :
    mapSecretEntries g entries = entries.map fun x => (x.1.mapSecrets g, g x.2) := by
  induction entries with
  | nil => rw [mapSecretEntries, map_nil]
  | cons x entries ih => rw [mapSecretEntries, ih, map_cons]

end

attribute [simp] everyField_eq everyElem_eq everyEntry_eq everySecretEntry_eq mapFields_eq
  mapElems_eq mapEntries_eq mapSecretEntries_eq Value.everySecret Value.mapSecrets

/-! ## Putting other contents into Secrets -/

@[simp] theorem shown_secretString (s : String) : shown (secretString s) = true := by
  unfold shown secretString
  split <;> simp

theorem secretString_of_shown {s : String} (h : shown s = true) : secretString s = s := by
  unfold shown at h
  unfold secretString
  split
  · rename_i hs
    exact hs.symm
  · rename_i hs
    simpa [hs, eq_comm] using h

variable {g g' : String → String} {p : String → Bool} {v v' w : Value} {fl : Flag}

theorem Value.mapSecrets_of_every (h : ∀ s, p s = true → g s = s)
    (hv : v.everySecret p = true) : v.mapSecrets g = v := by
  induction v with
  | secret s => simpa using h s hv
  | string | other | null => simp
  | pointer v ih | iface v ih => simpa using ih hv
  | struct _ ih | slice _ ih | array _ ih | secretMap _ ih | map _ ih =>
    simp only [everySecret, everyField_eq, everyElem_eq, everyEntry_eq, everySecretEntry_eq,
      List.all_eq_true, Bool.and_eq_true] at hv
    simp only [mapSecrets, mapFields_eq, mapElems_eq, mapEntries_eq, mapSecretEntries_eq]
    congr 1
    refine (map_congr_left fun x hx => ?_).trans (List.map_id' _)
    grind

theorem Value.mapSecrets_mapSecrets (v : Value) :
    (v.mapSecrets g).mapSecrets g' = v.mapSecrets (g' ∘ g) := by
  induction v with
  | secret | string | other | null => simp
  | pointer v ih | iface v ih => simpa using ih
  | struct _ ih | slice _ ih | array _ ih | secretMap _ ih | map _ ih =>
    simp only [mapSecrets, mapFields_eq, mapElems_eq, mapEntries_eq, mapSecretEntries_eq,
      List.map_map]
    congr 1
    refine map_congr_left fun x hx => ?_
    grind

theorem Value.everySecret_mapSecrets (h : ∀ s, p (g s) = true) (v : Value) :
    (v.mapSecrets g).everySecret p = true := by
  induction v with
  | secret s => simpa using h s
  | string | other | null => simp
  | pointer v ih | iface v ih => simpa using ih
  | struct _ ih | slice _ ih | array _ ih | secretMap _ ih | map _ ih =>
    simp only [mapSecrets, everySecret, mapFields_eq, mapElems_eq, mapEntries_eq,
      mapSecretEntries_eq, everyField_eq, everyElem_eq, everyEntry_eq, everySecretEntry_eq,
      List.all_map, List.all_eq_true]
    grind

/-! ## A covered tree -/

theorem redactFields_eq {fields : List (Field × Value)}
    (h : ∀ x ∈ fields, redactValue (fl.field x.1) x.2 = some (x.2.mapSecrets g)) :
    redactFields fl fields = some (mapFields g fields) := by
  induction fields with
  | nil => simp [redactFields]
  | cons x fields ih =>
    obtain ⟨hx, hfields⟩ := forall_mem_cons.mp h
    simp [redactFields, hx, ih hfields]

theorem redactElems_eq {elems : List Value}
    (h : ∀ v ∈ elems, redactValue fl v = some (v.mapSecrets g)) :
    redactElems fl elems = some (mapElems g elems) := by
  induction elems with
  | nil => simp [redactElems]
  | cons v elems ih =>
    obtain ⟨hv, helems⟩ := forall_mem_cons.mp h
    simp [redactElems, hv, ih helems]

theorem setMapIndexes_eq {entries : List (Value × String)} (h : coveredEntries fl entries = true) :
    setMapIndexes fl entries = some (mapSecretEntries secretString entries) := by
  induction entries with
  | nil => simp [setMapIndexes]
  | cons x entries ih =>
    obtain ⟨k, s⟩ := x
    simp only [coveredEntries, all_cons, Bool.and_eq_true, Bool.or_eq_true,
      decide_eq_true_eq] at h
    obtain ⟨⟨hkey, hset⟩, hentries⟩ := h
    have hnot : ¬ (s ≠ "" ∧ fl.ro ≠ .no) := by
      rintro ⟨hs, hro⟩
      exact hset.elim hro hs
    rw [setMapIndexes, if_neg hnot, ih hentries, mapSecretEntries,
      Value.mapSecrets_of_every (fun s => secretString_of_shown) hkey, map_some]

theorem coveredFields_eq (fl : Flag) (fields : List (Field × Value)) :
    coveredFields fl fields = fields.all fun x => x.2.covered (fl.field x.1) := by
  induction fields with
  | nil => rw [coveredFields, all_nil]
  | cons x fields ih => rw [coveredFields, ih, all_cons]

theorem coveredElems_eq (fl : Flag) (elems : List Value) :
    coveredElems fl elems = elems.all fun v => v.covered fl := by
  induction elems with
  | nil => rw [coveredElems, all_nil]
  | cons v elems ih => rw [coveredElems, ih, all_cons]

/-- The walk puts the marker into every Secret of a covered tree that is not empty, and
does nothing else. -/
theorem redactValue_of_covered (h : v.covered fl = true) :
    redactValue fl v = some (v.mapSecrets secretString) := by
  induction v generalizing fl with
  | secret s =>
    simp only [Value.covered, Bool.or_eq_true] at h
    by_cases hset : fl.canSet = true ∧ s ≠ ""
    · simp [redactValue, hset, secretString]
    · have hshown : shown s = true := by
        rcases h with h | h
        · have hs : s = "" := not_not.mp fun hs => hset ⟨h, hs⟩
          simp [hs, shown]
        · exact h
      simp [redactValue, hset, secretString_of_shown hshown]
  | string | other | null => simp [redactValue]
  | pointer v ih => simp [redactValue, ih (by simpa [Value.covered] using h)]
  | iface v ih => simp [redactValue, ih (by simpa [Value.covered] using h)]
  | struct fields ih =>
    have hall : ∀ x ∈ fields, x.2.covered (fl.field x.1) = true := by
      simpa [Value.covered, coveredFields_eq] using h
    rw [redactValue, redactFields_eq fun x hx => ih x hx (hall x hx), Value.mapSecrets,
      map_some]
  | slice elems ih =>
    have hall : ∀ v ∈ elems, v.covered fl.sliceIndex = true := by
      simpa [Value.covered, coveredElems_eq] using h
    rw [redactValue, redactElems_eq fun v hv => ih v hv (hall v hv), Value.mapSecrets,
      map_some]
  | array elems ih =>
    have hall : ∀ v ∈ elems, v.covered fl.arrayIndex = true := by
      simpa [Value.covered, coveredElems_eq] using h
    rw [redactValue, redactElems_eq fun v hv => ih v hv (hall v hv), Value.mapSecrets,
      map_some]
  | secretMap entries =>
    rw [redactValue, setMapIndexes_eq (by simpa [Value.covered] using h), Value.mapSecrets,
      map_some]
  | map entries =>
    have hevery : (Value.map entries).everySecret shown = true := by
      rwa [Value.everySecret, ← Value.covered]
    rw [redactValue, Value.mapSecrets_of_every (fun s => secretString_of_shown) hevery]

/-! ## A tree that is not covered -/

theorem coveredFields_of_redacted {fields fields' : List (Field × Value)}
    (ih : ∀ x ∈ fields, ∀ v', redactValue (fl.field x.1) x.2 = some v' →
      v'.everySecret shown = true → x.2.covered (fl.field x.1) = true)
    (h : redactFields fl fields = some fields') (hshown : everyField shown fields' = true) :
    coveredFields fl fields = true := by
  induction fields generalizing fields' with
  | nil => rw [coveredFields]
  | cons x fields hfields =>
    obtain ⟨hx, htail⟩ := forall_mem_cons.mp ih
    simp only [redactFields, bind_eq_bind, bind_eq_some_iff, Option.pure_def,
      some.injEq] at h
    obtain ⟨v', hv', fields₁, hfields₁, rfl⟩ := h
    rw [everyField, Bool.and_eq_true] at hshown
    rw [coveredFields, hx v' hv' hshown.1, hfields htail hfields₁ hshown.2, Bool.and_self]

theorem coveredElems_of_redacted {elems elems' : List Value}
    (ih : ∀ v ∈ elems, ∀ v', redactValue fl v = some v' →
      v'.everySecret shown = true → v.covered fl = true)
    (h : redactElems fl elems = some elems') (hshown : everyElem shown elems' = true) :
    coveredElems fl elems = true := by
  induction elems generalizing elems' with
  | nil => rw [coveredElems]
  | cons v elems helems =>
    obtain ⟨hv, htail⟩ := forall_mem_cons.mp ih
    simp only [redactElems, bind_eq_bind, bind_eq_some_iff, Option.pure_def,
      some.injEq] at h
    obtain ⟨v', hv', elems₁, helems₁, rfl⟩ := h
    rw [everyElem, Bool.and_eq_true] at hshown
    rw [coveredElems, hv v' hv' hshown.1, helems htail helems₁ hshown.2, Bool.and_self]

theorem coveredEntries_of_set {entries entries' : List (Value × String)}
    (h : setMapIndexes fl entries = some entries')
    (hshown : everySecretEntry shown entries' = true) : coveredEntries fl entries = true := by
  induction entries generalizing entries' with
  | nil => rfl
  | cons x entries ih =>
    obtain ⟨k, s⟩ := x
    rw [setMapIndexes] at h
    obtain ⟨hset, hrest⟩ := ite_none_left_eq_some.mp h
    obtain ⟨entries₁, hentries₁, rfl⟩ := map_eq_some_iff.mp hrest
    rw [everySecretEntry, Bool.and_eq_true, Bool.and_eq_true] at hshown
    have htail := ih hentries₁ hshown.2
    have hro : fl.ro = .no ∨ s = "" := by
      by_cases hs : s = ""
      · exact .inr hs
      · exact .inl (not_not.mp fun hro => hset ⟨hs, hro⟩)
    unfold coveredEntries at htail ⊢
    rw [all_cons, htail, hshown.1.1]
    simpa using hro

/-- Where the walk leaves only markers, the tree was covered. -/
theorem covered_of_redacted (h : redactValue fl v = some v')
    (hshown : v'.everySecret shown = true) : v.covered fl = true := by
  induction v generalizing fl v' with
  | secret s =>
    rw [Value.covered]
    by_cases hset : fl.canSet = true
    · rw [hset, Bool.true_or]
    · simp [redactValue, hset] at h
      subst h
      simpa [hset] using hshown
  | string | other | null => rw [Value.covered]
  | pointer v ih =>
    rw [redactValue] at h
    obtain ⟨v₁, hv₁, rfl⟩ := map_eq_some_iff.mp h
    rw [Value.covered]
    exact ih hv₁ hshown
  | iface v ih =>
    rw [redactValue] at h
    obtain ⟨v₁, hv₁, rfl⟩ := map_eq_some_iff.mp h
    rw [Value.covered]
    exact ih hv₁ hshown
  | struct fields ih =>
    rw [redactValue] at h
    obtain ⟨fields₁, hfields₁, rfl⟩ := map_eq_some_iff.mp h
    rw [Value.covered]
    exact coveredFields_of_redacted (fun x hx v' => ih x hx) hfields₁ hshown
  | slice elems ih =>
    rw [redactValue] at h
    obtain ⟨elems₁, helems₁, rfl⟩ := map_eq_some_iff.mp h
    rw [Value.covered]
    exact coveredElems_of_redacted (fun v hv v' => ih v hv) helems₁ hshown
  | array elems ih =>
    rw [redactValue] at h
    obtain ⟨elems₁, helems₁, rfl⟩ := map_eq_some_iff.mp h
    rw [Value.covered]
    exact coveredElems_of_redacted (fun v hv v' => ih v hv) helems₁ hshown
  | secretMap entries =>
    rw [redactValue] at h
    obtain ⟨entries₁, hentries₁, rfl⟩ := map_eq_some_iff.mp h
    rw [Value.covered]
    exact coveredEntries_of_set hentries₁ hshown
  | map entries =>
    rw [redactValue] at h
    cases h
    rw [Value.covered]
    exact hshown

/-! ## Redaction -/

/-- A tree is redacted completely exactly if the walk covers it: no Secret is left
with anything but the marker and everything else is as it was. Covered trees that
differ only in the contents of Secrets that are not empty become equal. -/
theorem redaction_complete (v : Value) :
    (v.covered .settable = true ↔ ∃ v', redactValue .settable v = some v' ∧
      v'.everySecret shown = true ∧ v'.blanked = v.blanked) ∧
    (v.covered .settable = true → ∀ w, w.covered .settable = true → v.Alike w →
      redactValue .settable v = redactValue .settable w) := by
  refine ⟨⟨?_, ?_⟩, ?_⟩
  · intro hv
    refine ⟨_, redactValue_of_covered hv, Value.everySecret_mapSecrets shown_secretString v, ?_⟩
    unfold Value.blanked
    rw [Value.mapSecrets_mapSecrets]
    rfl
  · rintro ⟨v', hredact, hshown, -⟩
    exact covered_of_redacted hredact hshown
  · intro hv w hw halike
    rw [redactValue_of_covered hv, redactValue_of_covered hw]
    exact congrArg some halike

/-- An exported field that is not embedded. -/
def exportedField : Field := ⟨true, false⟩

/-- The `Config` of today, as far as Secrets go: a token, and Hosts with one each. -/
def tokens (token host : String) : Value :=
  .struct [(exportedField, .struct [(exportedField, .secret token)]),
    (exportedField, .slice [.struct [(exportedField, .string "a"), (exportedField, .secret host)]])]

theorem redaction_complete_tokens :
    (∃ v', redactValue .settable (tokens "glrt" "t") = some v' ∧
      v'.everySecret shown = true ∧ v'.blanked = (tokens "glrt" "t").blanked) ∧
    redactValue .settable (tokens "glrt" "t") = redactValue .settable (tokens "x" "y") :=
  ⟨(redaction_complete _).1.mp (by decide), (redaction_complete _).2 (by decide) _ (by decide) rfl⟩

/-- A map from names to structs with a Secret. -/
def namedTokens (token : String) : Value :=
  .map [(.string "a", .struct [(exportedField, .secret token)])]

/-- The walk does not go into the map. -/
theorem named_tokens_left (token : String) :
    redactValue .settable (namedTokens token) = some (namedTokens token) := by
  simp [redactValue, namedTokens]

theorem map_of_structs_shown :
    redactValue .settable (namedTokens "glrt") = some (namedTokens "glrt") ∧
    (namedTokens "glrt").everySecret shown = false ∧
    (namedTokens "glrt").Alike (namedTokens "other") ∧
    redactValue .settable (namedTokens "glrt") ≠ redactValue .settable (namedTokens "other") := by
  refine ⟨named_tokens_left _, by decide, rfl, ?_⟩
  rw [named_tokens_left, named_tokens_left]
  simp [namedTokens]

end FlintlockRunner.Config.Show
