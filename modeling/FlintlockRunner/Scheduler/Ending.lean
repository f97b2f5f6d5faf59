import FlintlockRunner.Scheduler.Refine

/-!
# What a function in flight will still end

`hostUnhealthy` and `abortRunning` take one snapshot of the live Allocations
and then end them one by one, each through `endAllocation`. `Frame.ends` is
what such a function still has before it, and `step_ends` is the one fact about
it: a step passes every Allocation it has to end on to the frames it leaves, or
ends it.
-/

namespace FlintlockRunner.Scheduler

open Next Threads

variable {c : Settings} {s : Impl} {n : Next} {a : Answer} {f : Frame}

/-- What a bulk abort still has to end, of the Allocations that are `mine`. -/
def AbortPc.todo (mine : Handle → Bool) : AbortPc → List Handle
  | .snapshot => []
  | .next todo => todo.filter mine
  | .failing h todo => h :: todo.filter mine

/-- The Allocations placed on a Host. -/
def Handle.on (name : String) (h : Handle) : Bool := h.alloc.placement.host = name

/-- The Allocations an activation will end without another look at them. -/
def Frame.ends : Frame → List Handle
  | .hostUnhealthy name pc => pc.todo (Handle.on name)
  | .abortRunning pc => pc.todo fun _ => true
  | .endAllocation h .finishing => [h]
  | _ => []

/-- What a stack of activations will end. -/
def endsOf (fs : List Frame) : List Handle := fs.flatMap Frame.ends

@[simp] theorem endsOf_nil : endsOf [] = [] := rfl

@[simp] theorem endsOf_cons (f : Frame) (fs : List Frame) :
    endsOf (f :: fs) = f.ends ++ endsOf fs := rfl

@[simp] theorem endsOf_append (fs gs : List Frame) : endsOf (fs ++ gs) = endsOf fs ++ endsOf gs :=
  List.flatMap_append

theorem Impl.finish_allocations (s : Impl) (h : Handle) : h.id ∉ (s.finish h).1.allocations := by
  have herased : h.id ∉ s.allocations.erase h.id := by
    rw [AList.mem_erase]
    exact fun hmem => hmem.1 rfl
  unfold Impl.finish
  split
  · dsimp only
    split <;> exact herased
  · assumption

theorem endAllocation_ends {h : Handle} {pc : EndPc} (hn : stepEndAllocation s h pc a = some n)
    {h' : Handle} (hmem : h' ∈ (Frame.endAllocation h pc).ends) : h'.id ∉ n.impl.allocations := by
  cases pc with
  | finishing =>
    obtain rfl := List.mem_singleton.mp hmem
    have hfin := s.finish_allocations h'
    unfold stepEndAllocation stepEnd at hn
    split at hn
    · split at hn
      all_goals
        rename_i heq
        rw [heq] at hfin
        cases hn
        exact hfin
    all_goals trivial
  | _ => cases hmem

theorem abort_ends {frame : AbortPc → Frame} {mine : Handle → Bool} {cause : Cause}
    (hends : ∀ pc, (frame pc).ends = pc.todo mine) {pc : AbortPc}
    (hn : stepAbort frame mine cause s pc a = some n) {h : Handle}
    (hmem : h ∈ pc.todo mine ∨ pc = .snapshot ∧ h ∈ s.liveHandles ∧ mine h = true) :
    h ∈ endsOf n.frames := by
  unfold stepAbort at hn
  split at hn
  -- snapshot
  · rename_i hs
    obtain ⟨hperm, ⟨⟩⟩ := Option.ite_none_right_eq_some.mp hn
    rcases hmem with hmem | ⟨-, hlive, hmine⟩
    · cases hmem
    · simpa [hends, AbortPc.todo, hmine] using hperm.mem_iff.mpr hlive
  -- next
  · rcases hmem with hmem | ⟨hpc, -⟩
    · cases hmem
    · cases hpc
  · rename_i h' todo
    have htodo : h ∈ (h' :: todo).filter mine := by
      rcases hmem with hmem | ⟨hpc, -⟩
      · exact hmem
      · cases hpc
    split at hn
    · rename_i hmine
      cases hn
      simpa [hends, AbortPc.todo, hmine] using htodo
    · rename_i hmine
      cases hn
      simpa [hends, AbortPc.todo, hmine] using htodo
  -- failing
  · rename_i h' todo
    cases hn
    rcases hmem with hmem | ⟨hpc, -⟩
    · have hlast : (Frame.endAllocation h' .finishing).ends = [h'] := rfl
      simpa [hends, AbortPc.todo, hlast] using hmem
    · cases hpc
  · cases hn

/-- **What has to be ended is passed on or ended.** -/
theorem step_ends (hn : step c s f a = some n) {h : Handle} (hmem : h ∈ f.ends) :
    h ∈ endsOf n.frames ∨ h.id ∉ n.impl.allocations := by
  cases f with
  | endAllocation h' pc => exact .inr (endAllocation_ends hn hmem)
  | hostUnhealthy name pc => exact .inl (abort_ends (fun _ => rfl) hn (.inl hmem))
  | abortRunning pc => exact .inl (abort_ends (fun _ => rfl) hn (.inl hmem))
  | _ => cases hmem

end FlintlockRunner.Scheduler
