import FlintlockRunner.Base.Path
import Mathlib.Data.List.Infix

/-!
# Absolute paths as lists of names

A cleaned absolute path is a list of names (`rooted`), and joining a path to it is an
operation on that list: the names in front of it are kept, up to as many as the joined
path climbs over with `..`, and its own names follow (`join_rooted`). Lying below a
directory is being longer than it as a list (`startsWith_rooted`).

A relative path that is cleaned climbs (`up`) and then has names (`own`); `escapes` is
whether these do not lead back through what it climbed over.
-/

namespace Path

open List Strings

/-- `..`. -/
def dotDot : List Char := ['.', '.']

/-- An element that cleaning keeps. -/
structure Name (e : List Char) : Prop where
  ne_nil : e ≠ []
  ne_dot : e ≠ ['.']
  ne_dotDot : e ≠ ['.', '.']
  slash : '/' ∉ e

/-- The path of a list of names. -/
def rooted (names : List (List Char)) : String :=
  "/" ++ "/".intercalate (names.map String.ofList)

variable (path : String)

/-- The names of an absolute path. -/
def names : List (List Char) :=
  ((split '/' path.toList).foldl (push true) []).reverse

/-- The elements of a path that is cleaned as a relative one. -/
def relElems : List (List Char) :=
  ((split '/' path.toList).foldl (push false) []).reverse

/-- How far a relative path climbs. -/
def up : Nat := ((relElems path).takeWhile (· = dotDot)).length

/-- The names a relative path has once it has climbed. -/
def own : List (List Char) := (relElems path).dropWhile (· = dotDot)

/-- A path that is joined to an absolute one comes to something that is not below it:
its names do not go on from those it climbed over. -/
def escapes (root path : String) : Bool :=
  own path ≠ [] && !((names root).drop ((names root).length - up path)).isPrefixOf (own path)

variable {l l' stack : List (List Char)} {e : List Char} {path : String}

/-! ## Splitting -/

theorem split_ne_nil (sep : Char) (s : List Char) : split sep s ≠ [] := by
  cases s with
  | nil => simp [split]
  | cons c s =>
    unfold split
    split
    · simp
    · split <;> simp

theorem split_append (sep : Char) (a b : List Char) :
    split sep (a ++ sep :: b) = split sep a ++ split sep b := by
  induction a with
  | nil => simp [split]
  | cons c a ih =>
    by_cases hc : c = sep
    · simp [split, hc, ih]
    · simp only [cons_append, split, if_neg hc, ih]
      cases hsplit : split sep a with
      | nil => exact absurd hsplit (split_ne_nil sep a)
      | cons part parts => simp

theorem split_eq_single {sep : Char} (h : sep ∉ e) : split sep e = [e] := by
  induction e with
  | nil => rfl
  | cons c e ih =>
    rw [mem_cons, not_or] at h
    simp [split, Ne.symm h.1, ih h.2]

theorem not_mem_split (sep : Char) (s : List Char) : ∀ e ∈ split sep s, sep ∉ e := by
  induction s with
  | nil => simp [split]
  | cons c s ih =>
    by_cases hc : c = sep
    · simpa [split, hc] using ih
    · simp only [split, if_neg hc]
      cases hsplit : split sep s with
      | nil => simpa using Ne.symm hc
      | cons part parts =>
        rw [hsplit] at ih
        obtain ⟨hpart, hparts⟩ := forall_mem_cons.mp ih
        simp only [forall_mem_cons]
        refine ⟨?_, hparts⟩
        simp [hpart, Ne.symm hc]

/-! ## Names on the stack -/

variable (b : Bool)

theorem push_name (h : Name e) : push b stack e = e :: stack := by
  have hskip : ¬ (e = [] ∨ e = ['.']) := not_or.mpr ⟨h.ne_nil, h.ne_dot⟩
  unfold push
  rw [if_neg hskip, if_neg h.ne_dotDot]

theorem push_skip (h : e = [] ∨ e = ['.']) : push b stack e = stack := by
  unfold push
  exact if_pos h

theorem push_dotDot (h : Name e) : push b (e :: stack) dotDot = stack := by
  simp [push, dotDot, h.ne_dotDot]

theorem element_cases (h : '/' ∉ e) : (e = [] ∨ e = ['.']) ∨ e = dotDot ∨ Name e := by
  by_cases hskip : e = [] ∨ e = ['.']
  · exact .inl hskip
  · by_cases hdots : e = dotDot
    · exact .inr (.inl hdots)
    · obtain ⟨hnil, hdot⟩ := not_or.mp hskip
      exact .inr (.inr ⟨hnil, hdot, hdots, h⟩)

theorem foldl_push_names (h : ∀ e ∈ l, Name e) (stack : List (List Char)) :
    l.foldl (push b) stack = l.reverse ++ stack := by
  induction l generalizing stack with
  | nil => rfl
  | cons e l ih =>
    obtain ⟨he, hl⟩ := forall_mem_cons.mp h
    rw [foldl_cons, push_name b he, ih hl, reverse_cons, append_assoc,
      singleton_append]

theorem foldl_push_relative (h : ∀ e ∈ l, '/' ∉ e) :
    ∃ up own, (∀ e ∈ own, Name e) ∧
      l.foldl (push false) [] = own ++ List.replicate up dotDot ∧
      ∀ stack, (∀ e ∈ stack, Name e) → l.foldl (push true) stack = own ++ stack.drop up := by
  induction l using reverseRecOn with
  | nil => exact ⟨0, [], by simp, by simp, by simp⟩
  | append_singleton l e ih =>
    simp only [mem_append, mem_singleton] at h
    obtain ⟨up, own, hown, hrel, habs⟩ := ih fun e' he' => h e' (.inl he')
    simp only [foldl_append, foldl_cons, foldl_nil, hrel]
    rcases element_cases (h e (.inr rfl)) with hskip | rfl | hname
    · refine ⟨up, own, hown, push_skip false hskip, ?_⟩
      intro stack hstack
      rw [habs stack hstack, push_skip true hskip]
    · cases own with
      | cons top own =>
        obtain ⟨htop, hown⟩ := forall_mem_cons.mp hown
        refine ⟨up, own, hown, push_dotDot false htop, ?_⟩
        intro stack hstack
        rw [habs stack hstack, cons_append, push_dotDot true htop]
      | nil =>
        refine ⟨up + 1, [], by simp, ?_, ?_⟩
        · cases up <;> simp [push, dotDot, replicate_succ]
        · intro stack hstack
          rw [habs stack hstack, nil_append, nil_append, ← drop_drop]
          cases hdrop : stack.drop up with
          | nil => rfl
          | cons top below =>
            have htop : top ∈ stack := mem_of_mem_drop (hdrop ▸ mem_cons_self)
            rw [push_dotDot true (hstack top htop), drop_one, tail_cons]
    · refine ⟨up, e :: own, forall_mem_cons.mpr ⟨hname, hown⟩, push_name false hname, ?_⟩
      intro stack hstack
      rw [habs stack hstack, push_name true hname, cons_append]

/-! ## Paths of names -/

theorem toList_rooted (h : l ≠ []) : (rooted l).toList = l.flatMap ('/' :: ·) := by
  have hslash : "/".toList = ['/'] := rfl
  unfold rooted
  rw [String.toList_append, String.toList_intercalate, List.map_map, hslash, singleton_append]
  induction l with
  | nil => exact absurd rfl h
  | cons e l ih =>
    cases l with
    | nil => simp
    | cons e' l =>
      have htail := ih (cons_ne_nil e' l)
      simp only [map_cons, Function.comp_apply, String.toList_ofList,
        intercalate_cons_cons, flatMap_cons] at htail ⊢
      simp [← htail]

theorem isAbs_rooted (l : List (List Char)) : isAbs (rooted l) = true := by
  simp [isAbs, startsWith, rooted]

theorem split_rooted (h : l ≠ []) (hl : ∀ e ∈ l, Name e) :
    split '/' (rooted l).toList = [] :: l := by
  rw [toList_rooted h]
  induction l with
  | nil => exact absurd rfl h
  | cons e l ih =>
    obtain ⟨he, hl⟩ := forall_mem_cons.mp hl
    cases l with
    | nil => simp [split, split_eq_single he.slash]
    | cons e' l =>
      have htail := ih (cons_ne_nil e' l) hl
      simp only [flatMap_cons, cons_append, split, if_pos, cons.injEq, true_and]
        at htail ⊢
      rw [split_append, split_eq_single he.slash, htail, singleton_append]

theorem names_of_split (path : String) : ∀ e ∈ names path, Name e := by
  obtain ⟨up, own, hown, -, habs⟩ := foldl_push_relative (not_mem_split '/' path.toList)
  intro e he
  rw [names, habs [] (by simp), drop_nil, append_nil, mem_reverse] at he
  exact hown e he

theorem clean_of_isAbs (h : isAbs path = true) : clean path = rooted (names path) := by
  unfold isAbs at h
  simp [clean, h, rooted, names]

@[simp] theorem names_rooted (hl : ∀ e ∈ l, Name e) : names (rooted l) = l := by
  by_cases h : l = []
  · subst h
    rfl
  · rw [names, split_rooted h hl, foldl_cons, push_skip true (.inl rfl),
      foldl_push_names true hl, append_nil, reverse_reverse]

theorem clean_rooted (hl : ∀ e ∈ l, Name e) : clean (rooted l) = rooted l := by
  rw [clean_of_isAbs (isAbs_rooted l), names_rooted hl]

/-- A path lies below another exactly if its names go on from the other's. -/
theorem startsWith_rooted (h : l ≠ []) (hl : ∀ e ∈ l, Name e) (hl' : ∀ e ∈ l', Name e) :
    startsWith (rooted l') (rooted l ++ "/") = true ↔ ∃ own, own ≠ [] ∧ l' = l ++ own := by
  have hslash : "/".toList = ['/'] := rfl
  unfold startsWith
  rw [ isPrefixOf_iff_prefix, String.toList_append, hslash]
  constructor
  · rintro ⟨rest, hrest⟩
    have hne : l' ≠ [] := by
      rintro rfl
      have hlen := congrArg length hrest
      cases l with
      | nil => exact h rfl
      | cons e l =>
        simp [rooted] at hlen
    rw [append_assoc, singleton_append] at hrest
    have hsplit := split_rooted hne hl'
    rw [← hrest, split_append, split_rooted h hl, cons_append] at hsplit
    exact ⟨split '/' rest, split_ne_nil '/' rest, (cons.inj hsplit).2.symm⟩
  · rintro ⟨own, hown, rfl⟩
    cases own with
    | nil => exact absurd rfl hown
    | cons e own =>
      rw [toList_rooted h, toList_rooted (by simp), flatMap_append, flatMap_cons,
        cons_append]
      exact (prefix_append_right_inj _).mpr ⟨_, singleton_append⟩

/-! ## Joining -/

theorem relElems_spec (path : String) :
    (∀ e ∈ own path, Name e) ∧ ∀ stack, (∀ e ∈ stack, Name e) →
      (split '/' path.toList).foldl (push true) stack
        = (own path).reverse ++ stack.drop (up path) := by
  obtain ⟨n, names, hnames, hrel, habs⟩ := foldl_push_relative (not_mem_split '/' path.toList)
  have helems : relElems path = List.replicate n dotDot ++ names.reverse := by
    simp [relElems, hrel]
  have hdots : ∀ e ∈ List.replicate n dotDot, decide (e = dotDot) = true := by
    simp
  have hnone : names.reverse.takeWhile (· = dotDot) = [] ∧
      names.reverse.dropWhile (· = dotDot) = names.reverse := by
    cases hcons : names.reverse with
    | nil => simp
    | cons e l =>
      have he : e ≠ dotDot := (hnames e (mem_reverse.mp (hcons ▸ mem_cons_self))).ne_dotDot
      simp [he]
  have hup : up path = n := by
    rw [up, helems, takeWhile_append_of_pos hdots, hnone.1, append_nil, length_replicate]
  have hown : own path = names.reverse := by
    rw [own, helems, dropWhile_append_of_pos hdots, hnone.2]
  rw [hup, hown, reverse_reverse]
  exact ⟨by simpa using hnames, habs⟩

theorem names_joined (hl : ∀ e ∈ l, Name e) (path : String) :
    ∀ e ∈ l.take (l.length - up path) ++ own path, Name e := by
  intro e he
  rcases mem_append.mp he with he | he
  · exact hl e (mem_of_mem_take he)
  · exact (relElems_spec path).1 e he

/-- What a path is when it is joined to one of names. -/
theorem join_rooted (h : l ≠ []) (hl : ∀ e ∈ l, Name e) (path : String) :
    join (rooted l) path = rooted (l.take (l.length - up path) ++ own path) := by
  have hslash : "/".toList = ['/'] := rfl
  have hroot : rooted l ≠ "" := by
    intro heq
    have hempty := isAbs_rooted l
    rw [heq] at hempty
    cases hempty
  have hsplit : split '/' (rooted l ++ "/" ++ path).toList = [] :: l ++ split '/' path.toList := by
    rw [String.toList_append, String.toList_append, hslash, append_assoc,
      singleton_append, split_append, split_rooted h hl]
  have habsolute : isAbs (rooted l ++ "/" ++ path) = true := by
    have hstart := isAbs_rooted l
    unfold isAbs startsWith at hstart ⊢
    rw [ isPrefixOf_iff_prefix] at hstart ⊢
    rw [String.toList_append, String.toList_append, append_assoc]
    exact hstart.trans (prefix_append _ _)
  rw [join, if_neg hroot, clean_of_isAbs habsolute, names, hsplit, foldl_append,
    foldl_cons, push_skip true (.inl rfl), foldl_push_names true hl, append_nil,
    (relElems_spec path).2 l.reverse (by simpa using hl), reverse_append, drop_reverse,
    reverse_reverse, reverse_reverse]

/-- A path comes to something below the names it is joined to exactly if it does not
escape, unless it comes to one of them or above. -/
theorem below_joined_iff (hl : ∀ e ∈ l, Name e)
    (hfresh : ¬ l.take (l.length - up path) ++ own path <+: l) :
    (∃ new, new ≠ [] ∧ l.take (l.length - up path) ++ own path = l ++ new) ↔
      escapes (rooted l) path = false := by
  have hown : own path ≠ [] := by
    intro hnil
    rw [hnil, append_nil] at hfresh
    exact hfresh ( List.take_prefix _ _)
  have hsplit : l = l.take (l.length - up path) ++ l.drop (l.length - up path) :=
    (take_append_drop _ _).symm
  rw [escapes, names_rooted hl, decide_eq_true hown, Bool.true_and, Bool.not_eq_false',
    isPrefixOf_iff_prefix]
  constructor
  · rintro ⟨new, -, hnew⟩
    refine ⟨new, ?_⟩
    nth_rewrite 3 [hsplit] at hnew
    rw [append_assoc] at hnew
    exact (append_cancel_left hnew).symm
  · rintro ⟨new, hnew⟩
    refine ⟨new, ?_, ?_⟩
    · rintro rfl
      rw [append_nil] at hnew
      rw [← hnew, ← hsplit] at hfresh
      exact hfresh prefix_rfl
    · nth_rewrite 3 [hsplit]
      rw [append_assoc, hnew]

theorem escapes_of_up (root : String) (h : up path = 0) : escapes root path = false := by
  simp [escapes, h]

theorem up_ofList (hslash : '/' ∉ e) (hdots : e ≠ dotDot) : up (String.ofList e) = 0 := by
  have hrel : relElems (String.ofList e) = (push false [] e).reverse := by
    rw [relElems, String.toList_ofList, split_eq_single hslash, foldl_cons, foldl_nil]
  rcases element_cases hslash with hskip | hdots' | hname
  · rw [up, hrel, push_skip false hskip]
    rfl
  · exact absurd hdots' hdots
  · rw [up, hrel, push_name false hname]
    simp [hdots]

end Path
