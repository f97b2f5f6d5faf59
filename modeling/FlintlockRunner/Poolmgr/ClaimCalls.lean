import FlintlockRunner.Base.Machine
import FlintlockRunner.Poolmgr.ClaimBackend

/-!
# Calls of the claim backend that overlap

Any number of `Heartbeat` and `ReleaseVM` calls run on one `Backend` at once, beside
the `ClaimVM` calls that store claims in it. A call looks its claim up, asks the API
server or the Client Library without the lock, and only then takes the claim out of
the map, if it is still the one under the lease id. So two calls may both have found
a claim, both decide that it is over and both come to its section.

`ClaimVM` makes a new claim each time, and no call puts one back: a claim that has
been made and is not held is never held again (`Shrinks`). `forget` lets go of a
claim only where it has just taken it out, which it can do once.

What the API server and the Client Library answer is in the labels. `letGo` starts
its goroutine right after the section, so it is part of its step.
-/

namespace FlintlockRunner.Poolmgr.Backend

/-- A call, by how far it has come and what it knows by then. `removed` is whether
the call's own section took the claim out. -/
inductive Call
  | heartbeat (leaseID : String)
  | reading (leaseID : String) (cl : ClaimObject)
  | forgetting (leaseID : String) (cl : ClaimObject) (answer : Except (Option Sentinel) Time)
  | beaten (found : Option ClaimObject) (removed : Bool) (answer : Except (Option Sentinel) Time)
  | releaseVM (leaseID : String)
  | releasing (leaseID : String) (cl : ClaimObject)
  | dropping (leaseID : String) (cl : ClaimObject)
  | deleting
  | released (found : Option ClaimObject) (removed : Bool) (answer : Except (Option Sentinel) Unit)

/-- What a call's step is answered: nothing, what `Heartbeat` reads, or the result of
a deletion. -/
inductive Reply
  | none
  | read (i : HeartbeatInput)
  | deleted (r : Except ApiError Unit)

variable (b : Backend)

/-- One step of a call, and the claims it lets go of. -/
def Call.step : Call → Reply → Option (Backend × Call × List ClaimObject)
  | .heartbeat leaseID, .none =>
    match b.held.lookup leaseID with
    | Option.none => some (b, .beaten Option.none false (.error (some .notFound)), [])
    | some cl => some (b, .reading leaseID cl, [])
  | .reading leaseID cl, .read i =>
    match heartbeatAnswer cl i with
    | (true, answer) => some (b, .forgetting leaseID cl answer, [])
    | (false, answer) => some (b, .beaten (some cl) false answer, [])
  | .forgetting leaseID cl answer, .none =>
    match b.forget leaseID cl with
    | (b', true) => some (b', .beaten (some cl) true answer, [cl])
    | (b', false) => some (b', .beaten (some cl) false answer, [])
  | .releaseVM leaseID, .none =>
    match b.held.lookup leaseID with
    | Option.none => some (b, .deleting, [])
    | some cl => some (b, .releasing leaseID cl, [])
  | .releasing leaseID cl, .deleted r =>
    match r with
    | .error e => some (b, .released (some cl) false (.error (translate e)), [])
    | .ok () => some (b, .dropping leaseID cl, [])
  | .dropping leaseID cl, .none =>
    match b.forget leaseID cl with
    | (b', removed) => some (b', .released (some cl) removed (.ok ()), [])
  | .deleting, .deleted r => some (b, .released Option.none false (deleteClaim r), [])
  | _, _ => Option.none

/-- The backend with its calls, and the claims that `forget` let go of. -/
structure Calls where
  backend : Backend
  calls : List Call
  letGos : List ClaimObject

/-- Which call starts or goes on. `ClaimVM` is its one section, with how it fared
before. -/
inductive CallLabel
  | claimVM (outcome : ClaimOutcome)
  | heartbeat (leaseID : String)
  | releaseVM (leaseID : String)
  | go (i : Nat) (reply : Reply)

def Calls.next (s : Calls) : CallLabel → Option Calls
  | .claimVM outcome => (s.backend.claimVM outcome).map fun r => { s with backend := r.1 }
  | .heartbeat leaseID => some { s with calls := s.calls ++ [.heartbeat leaseID] }
  | .releaseVM leaseID => some { s with calls := s.calls ++ [.releaseVM leaseID] }
  | .go i reply =>
    s.calls[i]?.bind fun c => (c.step s.backend reply).map fun (b, c', freed) =>
      ⟨b, s.calls.set i c', s.letGos ++ freed⟩

/-- The machine of a backend in use. -/
def callMachine : Machine Calls CallLabel where
  init s := s = ⟨new, [], []⟩
  next := Calls.next

/-! ## The map -/

/-- A claim is in the map. -/
def Holds (cl : ClaimObject) : Prop := ∃ leaseID, b.held.lookup leaseID = some cl

/-- Claims are held under their own names and were made by `ClaimVM`. -/
def Named : Prop :=
  ∀ leaseID cl, b.held.lookup leaseID = some cl → cl.name = leaseID ∧ cl.ptr < b.made

/-- No claim that was made before is put into the map. -/
structure Shrinks (b b' : Backend) : Prop where
  made : b.made ≤ b'.made
  holds : ∀ cl, cl.ptr < b.made → b'.Holds cl → b.Holds cl

variable {b b' : Backend} {cl : ClaimObject} {leaseID : String}

theorem Shrinks.refl (b : Backend) : Shrinks b b := ⟨le_refl _, fun _ _ h => h⟩

theorem named_new : Named new := by
  intro leaseID cl h
  simp [new] at h

theorem Named.holds_iff (h : b.Named) (hname : cl.name = leaseID) :
    b.Holds cl ↔ b.held.lookup leaseID = some cl := by
  constructor
  · rintro ⟨leaseID', hlookup⟩
    have hsame := (h leaseID' cl hlookup).1
    rwa [← hsame, hname] at hlookup
  · exact fun hlookup => ⟨leaseID, hlookup⟩

theorem Named.forget (h : b.Named) (hname : cl.name = leaseID) :
    ((b.forget leaseID cl).1.Named ∧ Shrinks b (b.forget leaseID cl).1 ∧
      ¬ (b.forget leaseID cl).1.Holds cl) ∧
    ((b.forget leaseID cl).2 = true → b.Holds cl) := by
  unfold Backend.forget
  split
  · rename_i hheld
    have hlookup : ∀ leaseID' cl', (b.held.erase leaseID).lookup leaseID' = some cl' →
        leaseID' ≠ leaseID ∧ b.held.lookup leaseID' = some cl' := by
      intro leaseID' cl' hl
      by_cases heq : leaseID' = leaseID
      · rw [heq, AList.lookup_erase] at hl
        cases hl
      · rw [AList.lookup_erase_ne heq] at hl
        exact ⟨heq, hl⟩
    refine ⟨⟨?_, ⟨le_refl _, ?_⟩, ?_⟩, fun _ => ⟨leaseID, hheld⟩⟩
    · intro leaseID' cl' hl
      exact h leaseID' cl' (hlookup leaseID' cl' hl).2
    · rintro cl' - ⟨leaseID', hl⟩
      exact ⟨leaseID', (hlookup leaseID' cl' hl).2⟩
    · rintro ⟨leaseID', hl⟩
      obtain ⟨hne, hl'⟩ := hlookup leaseID' cl hl
      exact hne ((h leaseID' cl hl').1.symm.trans hname)
  · rename_i hheld
    refine ⟨⟨h, Shrinks.refl b, ?_⟩, by simp⟩
    rwa [h.holds_iff hname]

theorem Named.claimVM (h : b.Named) {outcome : ClaimOutcome} {r : Except (Option Sentinel) Claim}
    (hclaim : b.claimVM outcome = some (b', r)) : b'.Named ∧ Shrinks b b' := by
  have hsame : b' = b → b'.Named ∧ Shrinks b b' := by
    rintro rfl
    exact ⟨h, Shrinks.refl b'⟩
  cases outcome with
  | servingCA e | noCertificate | failed e ctxDone =>
    cases hclaim
    exact hsame rfl
  | pending reason ctxDone =>
    obtain ⟨e, -, heq⟩ := Option.map_eq_some_iff.mp hclaim
    cases heq
    exact hsame rfl
  | bound name microVMUID nodeName agentAddress =>
    simp only [Backend.claimVM] at hclaim
    split at hclaim
    · cases hclaim
      refine ⟨?_, Nat.le_succ _, fun _ _ hheld => hheld⟩
      intro leaseID cl hl
      obtain ⟨hname, hmade⟩ := h leaseID cl hl
      exact ⟨hname, Nat.lt_succ_of_lt hmade⟩
    · rename_i claim hof
      cases hclaim
      have hlease : claim.leaseID = name := by
        unfold claimOf at hof
        split at hof
        · cases hof
        · cases hof
          rfl
      -- a lookup finds the new claim under its name, or what was there before
      have hlookup : ∀ leaseID cl, (b.held.insert claim.leaseID
            ⟨b.made, name, microVMUID, nodeName, agentAddress⟩).lookup leaseID = some cl →
          (cl.name = leaseID ∧ cl.ptr = b.made) ∨ b.held.lookup leaseID = some cl := by
        intro leaseID cl hl
        by_cases heq : leaseID = claim.leaseID
        · rw [heq, AList.lookup_insert] at hl
          cases hl
          exact .inl ⟨hlease.symm.trans heq.symm, rfl⟩
        · rw [AList.lookup_insert_ne heq] at hl
          exact .inr hl
      refine ⟨?_, Nat.le_succ _, ?_⟩
      · intro leaseID cl hl
        rcases hlookup leaseID cl hl with ⟨hname, hptr⟩ | hl
        · exact ⟨hname, hptr ▸ Nat.lt_succ_self _⟩
        · obtain ⟨hname, hmade⟩ := h leaseID cl hl
          exact ⟨hname, Nat.lt_succ_of_lt hmade⟩
      · rintro cl hold ⟨leaseID, hl⟩
        rcases hlookup leaseID cl hl with ⟨-, hptr⟩ | hl
        · exact absurd hptr (Nat.ne_of_lt hold)
        · exact ⟨leaseID, hl⟩

/-! ## The calls -/

/-- A claim that a call found under a lease id. -/
def Found (b : Backend) (leaseID : String) (cl : ClaimObject) : Prop :=
  cl.name = leaseID ∧ cl.ptr < b.made

/-- What holds of a call at each point. -/
def Call.Ok (b : Backend) : Call → Prop
  | .heartbeat _ | .releaseVM _ | .deleting => True
  | .reading leaseID cl | .releasing leaseID cl | .dropping leaseID cl => b.Found leaseID cl
  | .forgetting leaseID cl answer => b.Found leaseID cl ∧ answer = .error (some .notFound)
  | .beaten found removed answer =>
    (∀ cl ∈ found, cl.ptr < b.made ∧ (answer = .error (some .notFound) → ¬ b.Holds cl)) ∧
      (removed = true → answer = .error (some .notFound))
  | .released _ removed answer => removed = true → answer = .ok ()

theorem Found.mono (h : b.Found leaseID cl) (hb : Shrinks b b') : b'.Found leaseID cl :=
  ⟨h.1, lt_of_lt_of_le h.2 hb.made⟩

theorem Call.Ok.mono {c : Call} (h : c.Ok b) (hb : Shrinks b b') : c.Ok b' := by
  cases c with
  | heartbeat | releaseVM | deleting => trivial
  | reading leaseID cl | releasing leaseID cl | dropping leaseID cl =>
    exact Found.mono (b := b) h hb
  | forgetting leaseID cl answer => exact ⟨Found.mono (b := b) h.1 hb, h.2⟩
  | beaten found removed answer =>
    refine ⟨?_, h.2⟩
    intro cl hcl
    obtain ⟨hmade, hgone⟩ := h.1 cl hcl
    exact ⟨lt_of_lt_of_le hmade hb.made, fun hans hheld => hgone hans (hb.holds cl hmade hheld)⟩
  | released => exact h

/-- What one step of a call does. -/
structure Stepped (b b' : Backend) (c' : Call) (freed : List ClaimObject) : Prop where
  named : b'.Named
  shrinks : Shrinks b b'
  ok : c'.Ok b'
  letGo : freed = [] ∨ ∃ cl, freed = [cl] ∧ cl.ptr < b.made ∧ b.Holds cl ∧ ¬ b'.Holds cl

theorem Named.same (h : b.Named) {c' : Call} (hc : c'.Ok b) : Stepped b b c' [] :=
  ⟨h, Shrinks.refl b, hc, .inl rfl⟩

/-- What one request of a call does to the claims that are held. -/
theorem Call.step_spec (h : b.Named) {c c' : Call} (hc : c.Ok b) {reply : Reply}
    {freed : List ClaimObject} (hstep : c.step b reply = some (b', c', freed)) :
    Stepped b b' c' freed := by
  cases c with
  | heartbeat leaseID =>
    cases reply with
    | none =>
      simp only [Call.step] at hstep
      split at hstep
      · cases hstep
        exact h.same ⟨by simp, by simp⟩
      · rename_i cl hheld
        cases hstep
        exact h.same (h leaseID cl hheld)
    | read | deleted => cases hstep
  | reading leaseID cl =>
    cases reply with
    | read i =>
      have hanswer := heartbeatAnswer_notFound cl i
      simp only [Call.step] at hstep
      split at hstep <;> rename_i heq <;> rw [heq] at hanswer <;> cases hstep
      · exact h.same ⟨hc, hanswer.mp rfl⟩
      · refine h.same ⟨?_, by simp⟩
        rintro _ ⟨⟩
        exact ⟨hc.2, fun hans => absurd (hanswer.mpr hans) (by simp)⟩
    | none | deleted => cases hstep
  | forgetting leaseID cl answer =>
    cases reply with
    | none =>
      obtain ⟨hfound, hans⟩ := hc
      obtain ⟨⟨hnamed, hshrinks, hgone⟩, hheld⟩ := h.forget hfound.1
      have hok : ∀ removed, (Call.beaten (some cl) removed answer).Ok (b.forget leaseID cl).1 := by
        intro removed
        refine ⟨?_, fun _ => hans⟩
        rintro _ ⟨⟩
        exact ⟨lt_of_lt_of_le hfound.2 hshrinks.made, fun _ => hgone⟩
      simp only [Call.step] at hstep
      split at hstep <;> rename_i heq <;> rw [heq] at hnamed hshrinks hgone hheld hok <;>
        cases hstep
      · exact ⟨hnamed, hshrinks, hok true, .inr ⟨cl, rfl, hfound.2, hheld rfl, hgone⟩⟩
      · exact ⟨hnamed, hshrinks, hok false, .inl rfl⟩
    | read | deleted => cases hstep
  | releaseVM leaseID =>
    cases reply with
    | none =>
      simp only [Call.step] at hstep
      split at hstep
      · cases hstep
        exact h.same trivial
      · rename_i cl hheld
        cases hstep
        exact h.same (h leaseID cl hheld)
    | read | deleted => cases hstep
  | releasing leaseID cl =>
    cases reply with
    | deleted r =>
      cases r with
      | error e =>
        cases hstep
        exact h.same (by simp [Call.Ok])
      | ok =>
        cases hstep
        exact h.same hc
    | none | read => cases hstep
  | dropping leaseID cl =>
    cases reply with
    | none =>
      obtain ⟨⟨hnamed, hshrinks, -⟩, -⟩ := h.forget hc.1
      cases hstep
      exact ⟨hnamed, hshrinks, fun _ => rfl, .inl rfl⟩
    | read | deleted => cases hstep
  | deleting =>
    cases reply with
    | deleted r =>
      cases hstep
      exact h.same (by simp [Call.Ok])
    | none | read => cases hstep
  | beaten | released => cases reply <;> cases hstep

/-! ## Every run -/

/-- What holds of the backend and its calls in every run. -/
structure CallsOk (s : Calls) : Prop where
  named : s.backend.Named
  calls : ∀ c ∈ s.calls, c.Ok s.backend
  letGos : ∀ cl ∈ s.letGos, cl.ptr < s.backend.made ∧ ¬ s.backend.Holds cl
  once : s.letGos.Nodup

theorem callsOk_new : CallsOk ⟨new, [], []⟩ where
  named := named_new
  calls := by simp
  letGos := by simp
  once := List.nodup_nil

variable {s t : Calls}

theorem Shrinks.letGos (hb : Shrinks b b')
    (h : cl.ptr < b.made ∧ ¬ b.Holds cl) : cl.ptr < b'.made ∧ ¬ b'.Holds cl :=
  ⟨lt_of_lt_of_le h.1 hb.made, fun hheld => h.2 (hb.holds cl h.1 hheld)⟩

theorem CallsOk.start (h : CallsOk s) {c : Call} (hc : c.Ok s.backend) :
    CallsOk { s with calls := s.calls ++ [c] } where
  named := h.named
  calls := by
    intro c' hc'
    rcases List.mem_append.mp hc' with hc' | hc'
    · exact h.calls c' hc'
    · rw [List.mem_singleton.mp hc']
      exact hc
  letGos := h.letGos
  once := h.once

/-- Every step keeps this, and puts no claim back. -/
theorem CallsOk.next (h : CallsOk s) {l : CallLabel} (hnext : s.next l = some t) :
    CallsOk t ∧ Shrinks s.backend t.backend := by
  cases l with
  | claimVM outcome =>
    obtain ⟨⟨b', r⟩, hclaim, rfl⟩ := Option.map_eq_some_iff.mp hnext
    obtain ⟨hnamed, hshrinks⟩ := h.named.claimVM hclaim
    exact ⟨⟨hnamed, fun c hc => (h.calls c hc).mono hshrinks,
      fun cl hcl => hshrinks.letGos (h.letGos cl hcl), h.once⟩, hshrinks⟩
  | heartbeat leaseID =>
    cases hnext
    exact ⟨h.start trivial, Shrinks.refl _⟩
  | releaseVM leaseID =>
    cases hnext
    exact ⟨h.start trivial, Shrinks.refl _⟩
  | go i reply =>
    obtain ⟨c, hc, hrest⟩ := Option.bind_eq_some_iff.mp hnext
    obtain ⟨⟨b', c', freed⟩, hstep, rfl⟩ := Option.map_eq_some_iff.mp hrest
    obtain ⟨hnamed, hshrinks, hok, hletGo⟩ :=
      Call.step_spec h.named (h.calls c (List.mem_of_getElem? hc)) hstep
    refine ⟨⟨hnamed, ?_, ?_, ?_⟩, hshrinks⟩
    · intro c'' hc''
      rcases List.mem_or_eq_of_mem_set hc'' with hc'' | rfl
      · exact (h.calls c'' hc'').mono hshrinks
      · exact hok
    · intro cl hcl
      rcases List.mem_append.mp hcl with hcl | hcl
      · exact hshrinks.letGos (h.letGos cl hcl)
      · obtain rfl | ⟨cl', rfl, hmade, -, hgone⟩ := hletGo
        · cases hcl
        · rw [List.mem_singleton.mp hcl]
          exact ⟨lt_of_lt_of_le hmade hshrinks.made, hgone⟩
    · obtain rfl | ⟨cl', rfl, -, hheld, -⟩ := hletGo
      · simpa using h.once
      · -- the claim was held until now, so it was not let go of before
        have hnew : cl' ∉ s.letGos := fun hmem => (h.letGos cl' hmem).2 hheld
        refine List.nodup_append.mpr ⟨h.once, List.nodup_singleton cl', ?_⟩
        rintro a ha b hb rfl
        exact hnew (List.mem_singleton.mp hb ▸ ha)

theorem callsOk_reach (h : callMachine.Reach Machine.any s) : CallsOk s := by
  refine h.inv ?_ fun s l t hs _ hnext => (hs.next hnext).1
  rintro s rfl
  exact callsOk_new

theorem CallsOk.path (h : CallsOk s) (hpath : callMachine.Path Machine.any s t) :
    CallsOk t ∧ Shrinks s.backend t.backend := by
  refine hpath.inv (I := fun t => CallsOk t ∧ Shrinks s.backend t.backend) ?_
    ⟨h, Shrinks.refl _⟩
  rintro t l u ⟨ht, hst⟩ - hnext
  obtain ⟨hu, htu⟩ := ht.next hnext
  refine ⟨hu, hst.made.trans htu.made, ?_⟩
  intro cl hmade hheld
  exact hst.holds cl hmade (htu.holds cl (lt_of_lt_of_le hmade hst.made) hheld)

/-- Once a claim is held, whatever the calls of the backend do: it leaves the map at
most once and never comes back; `forget` lets go of it at most once; a `Heartbeat`
that found it and answers NOT_FOUND leaves it out of the map; and a `Heartbeat` with
another answer, or a `ReleaseVM` that fails, has not taken it out. -/
theorem held_claim_let_go_once {s₀ s : Calls} (hs₀ : callMachine.Reach Machine.any s₀)
    (hheld : s₀.backend.Holds cl) (hpath : callMachine.Path Machine.any s₀ s) :
    (¬ s.backend.Holds cl → ∀ t, callMachine.Path Machine.any s t → ¬ t.backend.Holds cl) ∧
    s.letGos.count cl ≤ 1 ∧
    (∀ removed answer, .beaten (some cl) removed answer ∈ s.calls →
      (answer = .error (some .notFound) → ¬ s.backend.Holds cl) ∧
      (answer ≠ .error (some .notFound) → removed = false)) ∧
    ∀ removed answer, .released (some cl) removed answer ∈ s.calls →
      answer ≠ .ok () → removed = false := by
  obtain ⟨leaseID, hlookup⟩ := hheld
  have hmade₀ : cl.ptr < s₀.backend.made := ((callsOk_reach hs₀).named leaseID cl hlookup).2
  obtain ⟨hs, hshrinks⟩ := (callsOk_reach hs₀).path hpath
  have hmade : cl.ptr < s.backend.made := lt_of_lt_of_le hmade₀ hshrinks.made
  refine ⟨?_, List.nodup_iff_count_le_one.mp hs.once cl, ?_, ?_⟩
  · intro hgone t ht hback
    exact hgone ((hs.path ht).2.holds cl hmade hback)
  · intro removed answer hcall
    obtain ⟨hfound, hremoved⟩ := hs.calls _ hcall
    refine ⟨(hfound cl rfl).2, ?_⟩
    intro hne
    exact Bool.not_eq_true _ ▸ fun htrue => hne (hremoved htrue)
  · intro removed answer hcall hne
    exact Bool.not_eq_true _ ▸ fun htrue => hne (hs.calls _ hcall htrue)

/-- A claim is stored. -/
def oneClaim : List CallLabel := [.claimVM (.bound "c" "vm" "node" "")]

/-- The Client Library has seen the Lease lost. -/
def leaseLost : Reply := .read ⟨true, false, .error .other⟩

/-- Two `Heartbeat` calls that both find the claim and both let go of it. -/
def twoHeartbeats : List CallLabel :=
  [.heartbeat "c", .heartbeat "c", .go 0 .none, .go 1 .none, .go 0 leaseLost, .go 1 leaseLost,
    .go 0 .none, .go 1 .none]

theorem held_claim_let_go_once_twice : ∃ s₀ s cl, callMachine.Reach Machine.any s₀ ∧
    s₀.backend.Holds cl ∧ callMachine.Path Machine.any s₀ s ∧ s.letGos = [cl] ∧
    s.letGos.count cl ≤ 1 := by
  have hs₀ := Machine.reach_exec (M := callMachine) rfl
    (show (callMachine.exec ⟨new, [], []⟩ oneClaim).isSome from rfl)
  have hheld : ((callMachine.exec ⟨new, [], []⟩ oneClaim).get rfl).backend.Holds
      ⟨0, "c", "vm", "node", ""⟩ := ⟨"c", rfl⟩
  obtain ⟨s, hexec, hletGos⟩ : ∃ s, callMachine.exec
      ((callMachine.exec ⟨new, [], []⟩ oneClaim).get rfl) twoHeartbeats = some s ∧
      s.letGos = [⟨0, "c", "vm", "node", ""⟩] := ⟨_, rfl, rfl⟩
  have hpath := Machine.path_of_exec hexec
  exact ⟨_, s, _, hs₀, hheld, hpath, hletGos, (held_claim_let_go_once hs₀ hheld hpath).2.1⟩

end FlintlockRunner.Poolmgr.Backend
