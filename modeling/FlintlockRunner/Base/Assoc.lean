import Mathlib.Data.List.AList

/-!
# Association lists

What a lookup finds after an insertion or an erasure, as an equivalence: the
form a proof by cases on the key needs. And what it finds in a map that a loop
has filled (`insertAll`): one of the values written under its key, which is any
of them when no two writes disagree.
-/

namespace Assoc

variable {α β : Type*} [DecidableEq α] {m : AList fun _ : α => β} {a a₀ : α} {b b₀ : β}

theorem lookup_insert_iff : (m.insert a₀ b₀).lookup a = some b ↔
    (a = a₀ ∧ b₀ = b) ∨ (a ≠ a₀ ∧ m.lookup a = some b) := by
  by_cases ha : a = a₀
  · rw [ha, AList.lookup_insert]
    simp
  · rw [AList.lookup_insert_ne ha]
    simp [ha]

/-! ## Lookups as functions of the key -/

section Update

variable {γ : Type*} (m) (a) (g : β → γ)

theorem map_lookup_insert (b : β) : (fun k => ((m.insert a b).lookup k).map g)
    = Function.update (fun k => (m.lookup k).map g) a (some (g b)) := by
  funext k
  by_cases hk : k = a
  · rw [hk, AList.lookup_insert, Function.update_self]
    rfl
  · rw [AList.lookup_insert_ne hk, Function.update_of_ne hk]

theorem map_lookup_erase : (fun k => ((m.erase a).lookup k).map g)
    = Function.update (fun k => (m.lookup k).map g) a none := by
  funext k
  by_cases hk : k = a
  · rw [hk, AList.lookup_erase, Function.update_self]
    rfl
  · rw [AList.lookup_erase_ne hk, Function.update_of_ne hk]

theorem lookup_insert_eq (b : β) :
    (fun k => (m.insert a b).lookup k) = Function.update (fun k => m.lookup k) a (some b) := by
  simpa using map_lookup_insert m a id b

theorem lookup_erase_eq :
    (fun k => (m.erase a).lookup k) = Function.update (fun k => m.lookup k) a none := by
  simpa using map_lookup_erase m a id

end Update

/-! ## Maps filled by a loop -/

/-- Write the pairs of a list in turn; a later one overwrites. -/
def insertAll (m : AList fun _ : α => β) (l : List (α × β)) : AList fun _ : α => β :=
  l.foldl (fun m p => m.insert p.1 p.2) m

@[simp] theorem insertAll_nil : insertAll m [] = m := rfl

@[simp] theorem insertAll_cons (p : α × β) (l : List (α × β)) :
    insertAll m (p :: l) = insertAll (m.insert p.1 p.2) l := rfl

theorem insertAll_append (l l' : List (α × β)) :
    insertAll m (l ++ l') = insertAll (insertAll m l) l' := List.foldl_append

variable {l : List (α × β)}

theorem mem_of_lookup_insertAll (h : (insertAll m l).lookup a = some b) :
    m.lookup a = some b ∨ (a, b) ∈ l := by
  induction l generalizing m with
  | nil => exact .inl h
  | cons p l ih =>
    rcases ih h with hm | hl
    · rcases lookup_insert_iff.mp hm with ⟨rfl, rfl⟩ | ⟨-, hm⟩
      · exact .inr List.mem_cons_self
      · exact .inl hm
    · exact .inr (List.mem_cons_of_mem p hl)

theorem mem_insertAll : a ∈ insertAll m l ↔ a ∈ m ∨ a ∈ l.map Prod.fst := by
  induction l generalizing m with
  | nil => simp
  | cons p l ih =>
    rw [insertAll_cons, ih]
    simp [or_assoc, or_left_comm]

/-- No two pairs of the list have one key and different values. -/
def Agree (l : List (α × β)) : Prop := ∀ p ∈ l, ∀ q ∈ l, p.1 = q.1 → p.2 = q.2

instance (l : List (α × β)) [DecidableEq β] : Decidable (Agree l) :=
  inferInstanceAs (Decidable (∀ p ∈ l, ∀ q ∈ l, p.1 = q.1 → p.2 = q.2))

/-- Where no two writes disagree, what is found is what was written. -/
theorem lookup_insertAll_iff (hagree : Agree l) :
    (insertAll ∅ l).lookup a = some b ↔ (a, b) ∈ l := by
  constructor
  · intro h
    exact (mem_of_lookup_insertAll h).resolve_left (by simp)
  · intro hmem
    have hkey : a ∈ insertAll (∅ : AList fun _ : α => β) l :=
      mem_insertAll.mpr (.inr (List.mem_map_of_mem hmem))
    obtain ⟨b', hb'⟩ := Option.isSome_iff_exists.mp (AList.lookup_isSome.mpr hkey)
    have hmem' := (mem_of_lookup_insertAll hb').resolve_left (by simp)
    exact hb'.trans (congrArg some (hagree _ hmem' _ hmem rfl))

end Assoc
