import Mathlib.Logic.Relation

/-!
# Labelled machines and their runs

A `Machine` is a partial function on states driven by labels: the label says
who moves and what the environment answers, `none` says that the move is not
enabled. Everything a concurrent development quantifies over ("every
interleaving", "every run whose steps all meet a condition") is a set of label
sequences, so the two notions here are enough for all of it:

- `exec`: run a list of labels, executable, for concrete runs;
- `Path ok`: the runs whose every step is allowed by `ok`, a condition on the
  state *before* the step and on its label. `Path Machine.any` is every run.

`Path.inv` is the invariant rule: what one allowed step preserves, a whole run
preserves. Every run theorem of the development is an instance of it, or of
`tally_le` where the steps of one kind are bounded by those of another.
-/

universe u v

/-- A labelled machine: where runs start, and what a label does to a state
(`none`: the label is not enabled there). -/
structure Machine (σ : Type u) (α : Type v) where
  init : σ → Prop
  next : σ → α → Option σ

namespace Machine

variable {σ : Type u} {α : Type v} (M : Machine σ α)

/-- No condition on steps: every run is allowed. -/
def any : σ → α → Prop := fun _ _ => True

/-- Run a list of labels. -/
def exec : σ → List α → Option σ
  | s, [] => some s
  | s, a :: as => (M.next s a).bind fun t => exec t as

/-- Run a list of labels, stopping where a step breaks the condition `ok`. -/
def execWhile (ok : σ → α → Bool) : σ → List α → Option σ
  | s, [] => some s
  | s, a :: as =>
    if ok s a then (M.next s a).bind fun t => execWhile ok t as else none

/-- How many steps of a run are of one kind. -/
def tally (P : σ → α → Bool) : σ → List α → Nat
  | _, [] => 0
  | s, a :: as => (P s a).toNat + (M.next s a).elim 0 fun t => tally P t as

/-- The runs whose steps all meet `ok`. -/
inductive Path (ok : σ → α → Prop) : σ → σ → Prop
  | refl (s : σ) : Path ok s s
  | tail {s t u : σ} {a : α} : Path ok s t → ok t a → M.next t a = some u → Path ok s u

/-- The states some run from an initial state reaches, with every step
meeting `ok`. -/
def Reach (ok : σ → α → Prop) (s : σ) : Prop :=
  ∃ s₀, M.init s₀ ∧ M.Path ok s₀ s

variable {M} {ok : σ → α → Prop}

theorem Path.trans {s t u : σ} (h₁ : M.Path ok s t) (h₂ : M.Path ok t u) : M.Path ok s u := by
  induction h₂ with
  | refl => exact h₁
  | tail _ hok hnext ih => exact ih.tail hok hnext

variable {s t : σ} {I : σ → Prop}

/-- **The invariant rule.** What every allowed step preserves, a run
preserves. -/
theorem Path.inv (hstep : ∀ s a t, I s → ok s a → M.next s a = some t → I t)
    (h : M.Path ok s t) (hs : I s) : I t := by
  induction h with
  | refl => exact hs
  | tail _ hok hnext ih => exact hstep _ _ _ ih hok hnext

/-- The invariant rule from the initial states on. -/
theorem Reach.inv (hinit : ∀ s, M.init s → I s)
    (hstep : ∀ s a t, I s → ok s a → M.next s a = some t → I t)
    {s : σ} (h : M.Reach ok s) : I s := by
  obtain ⟨s₀, h₀, hpath⟩ := h
  exact hpath.inv hstep (hinit s₀ h₀)

theorem Reach.path (h : M.Reach ok s) (hp : M.Path ok s t) : M.Reach ok t := by
  obtain ⟨s₀, h₀, hpath⟩ := h
  exact ⟨s₀, h₀, hpath.trans hp⟩

theorem Reach.tail {a : α} (h : M.Reach ok s) (hok : ok s a)
    (hnext : M.next s a = some t) : M.Reach ok t :=
  h.path ((Path.refl s).tail hok hnext)

theorem Path.mono {ok' : σ → α → Prop} (hle : ∀ s a, ok s a → ok' s a) (h : M.Path ok s t) :
    M.Path ok' s t := by
  induction h with
  | refl => exact .refl _
  | tail _ hok hnext ih => exact ih.tail (hle _ _ hok) hnext

theorem Reach.mono {ok' : σ → α → Prop} (hle : ∀ s a, ok s a → ok' s a)
    {s : σ} (h : M.Reach ok s) : M.Reach ok' s := by
  obtain ⟨s₀, h₀, hpath⟩ := h
  exact ⟨s₀, h₀, hpath.mono hle⟩

theorem Path.head {s t u : σ} {a : α} (hok : ok s a)
    (hnext : M.next s a = some t) (h : M.Path ok t u) : M.Path ok s u :=
  ((Path.refl s).tail hok hnext).trans h

/-- **Invariants through a simulation.** Where every allowed step is a run of
another machine between the views of its states, what the steps of those runs
preserve holds of the view all along. -/
theorem Path.sim {τ : Type*} {β : Type*} {N : Machine τ β} (view : σ → τ)
    {allow : σ → α → τ → β → Prop} {I : τ → Prop}
    (hsim : ∀ s a t, I (view s) → ok s a → M.next s a = some t →
      N.Path (allow s a) (view s) (view t))
    (hinv : ∀ s a, ok s a → I (view s) → ∀ c m d, I c → allow s a c m → N.next c m = some d → I d)
    {s t : σ} (h : M.Path ok s t) (hs : I (view s)) : I (view t) := by
  refine h.inv (I := fun s => I (view s)) (fun s a t hI hok hnext => ?_) hs
  exact (hsim s a t hI hok hnext).inv (hinv s a hok hI) hI

theorem exec_append (s : σ) (as bs : List α) :
    M.exec s (as ++ bs) = (M.exec s as).bind fun t => M.exec t bs := by
  induction as generalizing s with
  | nil => rfl
  | cons a as ih =>
    show (M.next s a).bind _ = ((M.next s a).bind _).bind _
    rw [Option.bind_assoc]
    exact congrArg _ (funext fun t => ih t)

variable {as : List α}

theorem exec_concat {s u : σ} {a : α} (h : M.exec s (as ++ [a]) = some u) :
    ∃ t, M.exec s as = some t ∧ M.next t a = some u := by
  rw [exec_append] at h
  obtain ⟨t, ht, hnext⟩ := Option.bind_eq_some_iff.mp h
  obtain ⟨v, hv, hend⟩ := Option.bind_eq_some_iff.mp hnext
  cases hend
  exact ⟨t, ht, hv⟩

/-- **The charging rule.** A step of one kind is paid for by a step of the other,
at once or in advance: `φ` is what has been paid and not used. -/
theorem tally_le {P Q : σ → α → Bool} {φ : σ → Nat}
    (hstep : ∀ a ∈ as, ∀ s t, I s → M.next s a = some t →
      I t ∧ φ t + (P s a).toNat ≤ φ s + (Q s a).toNat) :
    ∀ {s t : σ}, I s → M.exec s as = some t →
      φ t + M.tally P s as ≤ φ s + M.tally Q s as := by
  induction as with
  | nil =>
    intro s t _ h
    cases h
    exact Nat.le_refl _
  | cons a as ih =>
    intro s t hs h
    obtain ⟨u, hu, hrest⟩ := Option.bind_eq_some_iff.mp h
    obtain ⟨hI, hpaid⟩ := hstep a List.mem_cons_self s u hs hu
    have hlater := ih (fun b hb => hstep b (List.mem_cons_of_mem _ hb)) hI hrest
    unfold tally
    rw [hu]
    dsimp only [Option.elim_some]
    omega

theorem path_of_exec : ∀ {as : List α} {s t : σ},
    M.exec s as = some t → M.Path any s t
  | [], s, t, h => by
    cases h
    exact .refl s
  | a :: as, s, t, h => by
    obtain ⟨u, hu, hrest⟩ := Option.bind_eq_some_iff.mp h
    exact .head trivial hu (path_of_exec hrest)

/-- An executed label sequence whose steps all passed the check `ok` is a run
whose steps all meet it. -/
theorem path_of_execWhile {ok : σ → α → Bool} : ∀ {as : List α} {s t : σ},
    M.execWhile ok s as = some t → M.Path (fun s a => ok s a = true) s t
  | [], s, t, h => by
    cases h
    exact .refl s
  | a :: as, s, t, h => by
    by_cases hok : ok s a = true
    · rw [execWhile, if_pos hok] at h
      obtain ⟨u, hu, hrest⟩ := Option.bind_eq_some_iff.mp h
      exact .head hok hu (path_of_execWhile hrest)
    · rw [execWhile, if_neg hok] at h
      cases h

theorem reach_exec {s₀ : σ} (h₀ : M.init s₀)
    (h : (M.exec s₀ as).isSome) : M.Reach any ((M.exec s₀ as).get h) :=
  ⟨s₀, h₀, path_of_exec (Option.some_get h).symm⟩

theorem path_execWhile [∀ s, DecidablePred (ok s)] (as : List α)
    (h : M.execWhile (fun s a => decide (ok s a)) s as = some t) : M.Path ok s t :=
  (path_of_execWhile h).mono fun _ _ => of_decide_eq_true

theorem reach_run (ok : σ → α → Prop) [∀ s, DecidablePred (ok s)] {s₀ : σ} (as : List α)
    (h₀ : M.init s₀) (h : (M.execWhile (fun s a => decide (ok s a)) s₀ as).isSome) :
    M.Reach ok ((M.execWhile (fun s a => decide (ok s a)) s₀ as).get h) :=
  ⟨s₀, h₀, path_execWhile as (Option.some_get h).symm⟩

end Machine
