import Mathlib.Algebra.Order.Group.Multiset
import Mathlib.Data.Multiset.Filter

/-!
# Pools of call stacks

A concurrent program is a pool of threads, each a call stack of frames. One
step takes the top frame of one thread, replaces it by zero or more frames
(return, continue, call) and may start new threads: `advance`.

What an invariant over such a program sees of the pool is the multiset of its
frames, `frames`. `frames_advance` is the one fact about it: a step takes the
top frame out and puts in the frames it leaves behind and those of the threads
it starts. `frames_split` is the same fact for a proof that keeps a name for
the frames the step does not touch. An invariant about the order of frames in a
stack goes through `mem_advance` and `split_frame` instead.
-/

universe u

namespace Threads

variable {φ : Type u}

/-- Replace the top frame of thread `i` (whose other frames are `rest`) by
`new`, and start the threads `spawned`. -/
def advance (ts : List (List φ)) (i : Nat) (rest new : List φ)
    (spawned : List (List φ)) : List (List φ) :=
  ts.set i (new ++ rest) ++ spawned

/-- The frames of all threads of a pool. -/
def frames (ts : List (List φ)) : Multiset φ := (ts.flatten : Multiset φ)

@[simp] theorem frames_nil : frames ([] : List (List φ)) = 0 := rfl

@[simp] theorem frames_cons (t : List φ) (ts : List (List φ)) :
    frames (t :: ts) = (t : Multiset φ) + frames ts := by
  simp [frames]

@[simp] theorem frames_append (ts us : List (List φ)) :
    frames (ts ++ us) = frames ts + frames us := by
  simp [frames]

variable {ts : List (List φ)}

@[simp] theorem mem_frames {f : φ} : f ∈ frames ts ↔ ∃ t ∈ ts, f ∈ t := by
  simp [frames]

theorem frames_set {t : List φ} (u : List φ) :
    ∀ {ts : List (List φ)} {i : Nat}, ts[i]? = some t →
      frames (ts.set i u) + (t : Multiset φ) = frames ts + (u : Multiset φ)
  | [], _, h => by cases h
  | t' :: ts, 0, h => by
    cases h
    rw [List.set_cons_zero, frames_cons, frames_cons, add_comm _ (t : Multiset φ),
      add_comm (u : Multiset φ), add_assoc]
  | t' :: ts, i + 1, h => by
    have ih : frames (ts.set i u) + (t : Multiset φ) = frames ts + (u : Multiset φ) :=
      frames_set u h
    rw [List.set_cons_succ, frames_cons, frames_cons, add_assoc, ih, add_assoc]

variable {i : Nat} {rest : List φ}

theorem top_mem {top : φ} (h : ts[i]? = some (top :: rest)) :
    top ∈ frames ts := mem_frames.mpr ⟨_, List.mem_of_getElem? h, List.mem_cons_self⟩

/-- **One step's effect on the frames**: the top frame goes, the frames left
behind and those of the started threads come. -/
theorem frames_advance {top : φ}
    (h : ts[i]? = some (top :: rest)) (new : List φ) (spawned : List (List φ)) :
    frames (advance ts i rest new spawned) + {top}
      = frames ts + ((new : Multiset φ) + frames spawned) := by
  have hset := frames_set (new ++ rest) h
  rw [← Multiset.coe_add, ← Multiset.cons_coe, ← Multiset.singleton_add,
    ← add_assoc, ← add_assoc] at hset
  have hcancel := add_right_cancel hset
  rw [advance, frames_append, add_right_comm, hcancel, add_assoc]

theorem frames_split {top : φ}
    (h : ts[i]? = some (top :: rest)) :
    ∃ others : Multiset φ, frames ts = top ::ₘ others ∧
      ∀ (new : List φ) (spawned : List (List φ)),
        frames (advance ts i rest new spawned)
          = (new : Multiset φ) + frames spawned + others := by
  obtain ⟨others, hothers⟩ := Multiset.exists_cons_of_mem (top_mem h)
  refine ⟨others, hothers, fun new spawned => ?_⟩
  have hadv := frames_advance h new spawned
  rw [hothers, ← Multiset.singleton_add, add_comm _ ({top} : Multiset φ), add_assoc] at hadv
  rw [add_left_cancel hadv, add_comm]

section Members

variable {ts : List (List φ)} {top g : φ} {rest : List φ} (h : ts[i]? = some (top :: rest))

include h

/-- A frame after a step is one the step leaves or starts, or was there before. -/
theorem mem_of_frames_advance {new : List φ} {spawned : List (List φ)}
    (hg : g ∈ frames (advance ts i rest new spawned)) :
    g ∈ new ++ spawned.flatten ∨ g ∈ frames ts := by
  obtain ⟨others, hframes, hnew⟩ := frames_split h
  rw [hnew] at hg
  rw [hframes]
  exact (Multiset.mem_add.mp hg).imp id Multiset.mem_cons_of_mem

theorem frames_advance_new {new : List φ} {spawned : List (List φ)}
    (hg : g ∈ new ++ spawned.flatten) : g ∈ frames (advance ts i rest new spawned) := by
  obtain ⟨others, -, hnew⟩ := frames_split h
  rw [hnew]
  exact Multiset.mem_add.mpr (.inl hg)

/-- A frame that is not the step's own stays. -/
theorem frames_advance_old (new : List φ) (spawned : List (List φ)) (hg : g ∈ frames ts) :
    g = top ∨ g ∈ frames (advance ts i rest new spawned) := by
  obtain ⟨others, hframes, hnew⟩ := frames_split h
  rw [hframes] at hg
  rw [hnew]
  exact (Multiset.mem_cons.mp hg).imp_right fun hin => Multiset.mem_add.mpr (.inr hin)

end Members

theorem filterMap_split {β : Type*} (g : φ → Option β) {ts : List (List φ)} {top : φ}
    {rest : List φ} (h : ts[i]? = some (top :: rest)) :
    ∃ others : Multiset β, (frames ts).filterMap g = ((g top).toList : Multiset β) + others ∧
      ∀ (new : List φ) (spawned : List (List φ)),
        (frames (advance ts i rest new spawned)).filterMap g
          = ((new ++ spawned.flatten).filterMap g : List β) + others := by
  obtain ⟨others, hframes, hnew⟩ := frames_split h
  refine ⟨others.filterMap g, ?_, fun new spawned => ?_⟩
  · rw [hframes]
    cases htop : g top with
    | none => simp [htop]
    | some b => simp [htop]
  · rw [hnew, frames, Multiset.coe_add, Multiset.filterMap_add]
    rfl

variable {ts : List (List φ)}

theorem getElem?_advance {i j : Nat} (hne : j ≠ i) {t : List φ}
    (h : ts[j]? = some t) (rest new : List φ) (spawned : List (List φ)) :
    (advance ts i rest new spawned)[j]? = some t := by
  have hlt : j < (ts.set i (new ++ rest)).length := by
    rw [List.length_set]
    exact (List.getElem?_eq_some_iff.mp h).1
  rw [advance, List.getElem?_append_left hlt, List.getElem?_set_ne hne.symm, h]

theorem mem_advance {rest new : List φ} {spawned : List (List φ)} {t : List φ}
    (h : t ∈ advance ts i rest new spawned) : t = new ++ rest ∨ t ∈ ts ∨ t ∈ spawned := by
  rcases List.mem_append.mp h with h | h
  · rcases List.mem_or_eq_of_mem_set h with h | h
    · exact .inr (.inl h)
    · exact .inl h
  · exact .inr (.inr h)

theorem mem_advance_of_mem {t u : List φ} (ht : t ∈ ts) (hi : ts[i]? = some u)
    (rest new : List φ) (spawned : List (List φ)) : t = u ∨ t ∈ advance ts i rest new spawned := by
  obtain ⟨j, hj⟩ := List.mem_iff_getElem?.mp ht
  by_cases heq : j = i
  · rw [heq, hi] at hj
    exact .inl (Option.some.inj hj).symm
  · exact .inr (List.mem_of_getElem? (getElem?_advance heq hj rest new spawned))

theorem mem_advance_self {u : List φ} (hi : ts[i]? = some u)
    (rest new : List φ) (spawned : List (List φ)) :
    new ++ rest ∈ advance ts i rest new spawned := by
  have hlt : i < ts.length := (List.getElem?_eq_some_iff.mp hi).1
  exact List.mem_append_left _ (List.mem_set hlt _)

theorem split_frame {new rest above below : List φ} {x : φ}
    (h : new ++ rest = above ++ x :: below) :
    (∃ q, new = above ++ x :: q) ∨ ∃ p, above = new ++ p ∧ rest = p ++ x :: below := by
  rcases List.append_eq_append_iff.mp h with ⟨p, habove, hrest⟩ | ⟨q, hnew, hbelow⟩
  · exact .inr ⟨p, habove, hrest⟩
  · cases q with
    | nil =>
      rw [List.append_nil] at hnew
      exact .inr ⟨[], by rw [hnew, List.append_nil], hbelow.symm⟩
    | cons y q =>
      obtain ⟨rfl, -⟩ := List.cons.inj hbelow
      exact .inl ⟨q, hnew⟩

end Threads
