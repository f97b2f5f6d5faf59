import FlintlockRunner.Poolmgr.ClaimHub

/-!
# A subscription that fell behind

A stream that is a buffer behind is dropped, and the Tracker subscribes again. The
replay only adds stand-ins and a poll does not lower the named part of a count, so
a stand-in that was withdrawn in between stays named: the Tracker counts a MicroVM
that is gone until the Pool's count has passed over it again, or a claim finds the
Pool exhausted (`stale_stand_in`).

`NothingStale` is what has to hold of the subscriptions for that not to happen.
Beside it everything is arbitrary: what the watch sees, where the streams are
dropped, the answers of earlier polls, `MarkExhausted`, and which Pools are tracked
when.
-/

namespace FlintlockRunner.Poolmgr.HubSys

open Finset List PoolTracker TrackedPool

variable {buffer : Nat} {ns : String} {s s' : HubSys} {l : HubLabel} {ref : PoolRef}

/-- The condition on one step: the Tracker subscribes only when all that it has
named are stand-ins that the Pools have now. -/
def NothingStale (s : HubSys) : HubLabel → Prop
  | .subscribe _ => ∀ x ∈ s.tracker.pools.entries,
    x.2.available.named ⊆ standIns x.1 (countOf s.known x.1)
  | _ => True

instance (s : HubSys) : DecidablePred s.NothingStale
  | .subscribe _ => inferInstanceAs (Decidable (∀ _ ∈ _, _))
  | .observe _ | .gone _ | .resync _ | .listed | .collect _ | .ended | .publish | .recv | .close
  | .track _ _ | .setDeclared _ _ | .untrack _ | .markExhausted _ | .poll _ _ _ _ =>
    .isTrue trivial

/-- While the hub sends to the stream, no entry will name more than the stand-ins
of its Pool's count, nor would one that begins now. -/
structure Within (s : HubSys) : Prop where
  agrees : s.hub.Agrees s.known
  fresh : ∀ {queue}, s.stream = some ⟨queue, true⟩ → ∀ ref,
    availableAfter ∅ (s.pending ref) ⊆ standIns ref (countOf s.known ref)
  named : ∀ {queue}, s.stream = some ⟨queue, true⟩ → ∀ {ref p},
    s.tracker.pools.lookup ref = some p →
    availableAfter p.available.named (s.pending ref) ⊆ standIns ref (countOf s.known ref)

theorem availableAfter_within {S : Finset String} : ∀ {w : List Event} {a : Finset String},
    (∀ e ∈ w, e.type = .vmAvailable ∧ e.vmUID ∈ S) → a ⊆ S → availableAfter a w ⊆ S := by
  intro w
  induction w with
  | nil => exact fun _ ha => ha
  | cons e w ih =>
    intro a hw ha
    refine ih (fun e' he => hw e' (mem_cons_of_mem _ he)) ?_
    obtain ⟨htype, huid⟩ := hw e mem_cons_self
    show e.type.moves e.vmUID a ⊆ S
    unfold EventType.moves
    rw [htype, if_pos rfl]
    split
    · exact ha
    · exact insert_subset huid ha

theorem replayed (hA : s.hub.Agrees s.known) {order : List String}
    (hperm : order.Perm s.hub.available.keys) (ref : PoolRef) :
    ∀ e ∈ ofPool ref ((s.hub.replay order).take buffer),
      e.type = .vmAvailable ∧ e.vmUID ∈ standIns ref (countOf s.known ref) := by
  intro e he
  obtain ⟨hin, hpool⟩ := mem_filter.mp he
  have hall : e ∈ ofPool ref (s.hub.replay order) :=
    mem_filter.mpr ⟨mem_of_mem_take hin, hpool⟩
  rw [ofPool_replay_perm hA ref hperm] at hall
  obtain ⟨k, hk, rfl⟩ := mem_map.mp hall
  have hlt := List.mem_range.mp hk
  exact ⟨rfl, mem_standIns.mpr (by omega)⟩

/-- The names of a Tracker that a call has changed are those it had, or none. -/
def NamedFrom (t t' : PoolTracker) : Prop :=
  ∀ ref p', t'.pools.lookup ref = some p' → p'.available.named = ∅ ∨
    ∃ p, t.pools.lookup ref = some p ∧ p'.available.named = p.available.named

variable (t : PoolTracker)

theorem named_poolAt (ref : PoolRef) : (t.poolAt ref).available.named = ∅ ∨
    ∃ p, t.pools.lookup ref = some p ∧ (t.poolAt ref).available.named = p.available.named := by
  unfold poolAt
  cases t.pools.lookup ref with
  | none => exact .inl rfl
  | some p => exact .inr ⟨p, rfl, rfl⟩

variable {p : TrackedPool}

theorem namedFrom_put {t t' : PoolTracker}
    (hput : ∀ ref', t'.pools.lookup ref' = if ref' = ref then some p else t.pools.lookup ref')
    (hp : p.available.named = ∅ ∨ p.available.named = (t.poolAt ref).available.named) :
    NamedFrom t t' := by
  intro ref' p' hp'
  rw [hput] at hp'
  split at hp'
  · rename_i heq
    subst heq
    cases hp'
    rcases hp with hnone | hsame
    · exact .inl hnone
    · rw [hsame]
      exact named_poolAt t ref'
  · exact .inr ⟨p', hp', rfl⟩

theorem namedFrom_track (ref : PoolRef) (declared : Bool) :
    NamedFrom t (t.track ref declared).1 :=
  namedFrom_put (fun ref' => lookup_track t ref ref' declared) (.inr rfl)

theorem namedFrom_setDeclared (ref : PoolRef) (declared : Bool) :
    NamedFrom t (t.setDeclared ref declared) := by
  cases declared with
  | true => exact namedFrom_track t ref true
  | false =>
    exact namedFrom_put (fun ref' => lookup_setDeclared_false t ref ref') (.inr rfl)

theorem namedFrom_applyPoll (ref : PoolRef) (asked : Nat) (size : Int)
    (status : PoolStatus) : NamedFrom t (t.applyPoll ref asked size status).1 := by
  intro ref' p' hp'
  rw [lookup_applyPoll] at hp'
  split at hp'
  · rename_i heq
    subst heq
    obtain ⟨p, hp, rfl⟩ := Option.map_eq_some_iff.mp hp'
    refine .inr ⟨p, hp, ?_⟩
    split
    · rfl
    · rw [woke_available]
      rfl
  · exact .inr ⟨p', hp', rfl⟩

theorem Within.tracker (hW : s.Within) {t : PoolTracker} (ht : NamedFrom s.tracker t) :
    ({ s with tracker := t } : HubSys).Within where
  agrees := hW.agrees
  fresh := hW.fresh
  named hst ref p' hp' := by
    rcases ht ref p' hp' with hnone | ⟨p, hp, hsame⟩
    · rw [hnone]
      exact hW.fresh hst ref
    · rw [hsame]
      exact hW.named hst hp

theorem Within.moved (hW : s.Within) (hidle : s.sending = []) (hsec : Section s s') :
    s'.Within := by
  have hmono : ∀ {a : Finset String} (ref : PoolRef),
      availableAfter a (s.pending ref) ⊆ standIns ref (countOf s.known ref) →
      availableAfter a (s'.pending ref) ⊆ standIns ref (countOf s'.known ref) := by
    intro a ref ha
    rw [hsec.pending hidle, availableAfter_append, ← hsec.moves]
    exact availableAfter_mono _ ha
  refine ⟨hsec.agrees, fun hst ref => hmono ref (hW.fresh (hsec.stream ▸ hst) ref),
    fun hst ref p hp => hmono ref (hW.named (hsec.stream ▸ hst) (hsec.tracker ▸ hp))⟩

theorem publish_subscribed {e : Event} {queue : List Event}
    (h : s.publish buffer e = some ⟨queue, true⟩) :
    ∃ queue', s.stream = some ⟨queue', true⟩ ∧ queue'.length < buffer := by
  unfold HubSys.publish at h
  obtain ⟨⟨queue', subscribed⟩, hst, h⟩ := Option.map_eq_some_iff.mp h
  cases subscribed with
  | false => cases h
  | true =>
    rw [if_neg nofun] at h
    split at h
    · rename_i hroom
      exact ⟨queue', hst, hroom⟩
    · cases h

theorem Within.published (hW : s.Within) {e : Event} {rest : List Event}
    (hsending : s.sending = e :: rest) :
    ({ s with stream := s.publish buffer e, sending := rest } : HubSys).Within := by
  refine ⟨hW.agrees, fun hst ref => ?_, fun hst ref p hp => ?_⟩
  · obtain ⟨queue, hstream, hroom⟩ := publish_subscribed hst
    rw [pending_publish hsending hstream hroom]
    exact hW.fresh hstream ref
  · obtain ⟨queue, hstream, hroom⟩ := publish_subscribed hst
    rw [pending_publish hsending hstream hroom]
    exact hW.named hstream hp

theorem pending_subscribed (buffer : Nat) (hidle : s.sending = []) (order : List String)
    (ref : PoolRef) : ({ s with
      stream := some ⟨(s.hub.replay order).take buffer, true⟩
      tracker := s.tracker.setStreamUp true } : HubSys).pending ref
        = ofPool ref ((s.hub.replay order).take buffer) := by
  unfold HubSys.pending
  dsimp only
  rw [hidle, append_nil]
  rfl

theorem Within.subscribe (hW : s.Within) {order : List String} (hidle : s.sending = [])
    (hperm : order.Perm s.hub.available.keys)
    (hstale : ∀ x ∈ s.tracker.pools.entries,
      x.2.available.named ⊆ standIns x.1 (countOf s.known x.1)) :
    ({ s with
      stream := some ⟨(s.hub.replay order).take buffer, true⟩
      tracker := s.tracker.setStreamUp true } : HubSys).Within := by
  have hpending := pending_subscribed buffer hidle order
  refine ⟨hW.agrees, fun _ ref => ?_, fun _ ref p hp => ?_⟩
  · rw [hpending]
    exact availableAfter_within (replayed hW.agrees hperm ref) (empty_subset _)
  · rw [hpending]
    exact availableAfter_within (replayed hW.agrees hperm ref)
      (hstale ⟨ref, p⟩ (AList.mem_lookup_iff.mp hp))

theorem Within.received (hW : s.Within) {e : Event} {queue : List Event} {subscribed : Bool}
    (hstream : s.stream = some ⟨e :: queue, subscribed⟩) :
    ({ s with stream := some ⟨queue, subscribed⟩, tracker := (s.tracker.apply e).1 } :
      HubSys).Within := by
  refine ⟨hW.agrees, ?_, ?_⟩
  · rintro _ ⟨⟩ ref
    refine (availableAfter_suffix ?_).trans (hW.fresh hstream ref)
    unfold HubSys.pending
    rw [hstream]
    exact (suffix_cons e (queue ++ s.sending)).filter _
  · rintro _ ⟨⟩ ref p' hp'
    obtain ⟨p, hp, heq⟩ := lookup_received hp'
    rw [after_received hstream heq]
    exact hW.named hstream hp

theorem within_next (hW : s.Within) (hok : s.NothingStale l)
    (h : s.next buffer ns l = some s') : s'.Within := by
  cases stepped hW.agrees h with
  | watched => exact ⟨hW.agrees, hW.fresh, hW.named⟩
  | moved hidle hsec => exact hW.moved hidle hsec
  | published hsending => exact hW.published hsending
  | subscribed _ hidle hperm => exact hW.subscribe hidle hperm hok
  | received hstream => exact hW.received hstream
  | unsubscribed _ => exact ⟨hW.agrees, nofun, nofun⟩
  | closed =>
    refine ⟨⟨hW.agrees.said, hW.agrees.named⟩, fun hst => ?_, fun hst => ?_⟩
    all_goals
      obtain ⟨st, -, hst⟩ := Option.map_eq_some_iff.mp hst
      cases hst
  | tracked => exact hW.tracker (namedFrom_track _ _ _)
  | setDeclared => exact hW.tracker (namedFrom_setDeclared _ _ _)
  | untracked =>
    refine hW.tracker fun ref' p' hp' => .inr ⟨p', ?_, rfl⟩
    rw [lookup_untrack] at hp'
    split at hp'
    · cases hp'
    · exact hp'
  | exhausted =>
    exact hW.tracker
      (namedFrom_put (fun ref' => lookup_markExhausted _ _ ref') (.inl rfl))
  | polled => exact hW.tracker (namedFrom_applyPoll _ _ _ _ _)

theorem within_init (hb : s.Blank) : s.Within where
  agrees := agrees_init hb
  fresh hst := by
    rw [hb.stream] at hst
    cases hst
  named hst := by
    rw [hb.stream] at hst
    cases hst

theorem within_reach (hs : (hubs buffer ns).Reach NothingStale s) : s.Within :=
  hs.inv (fun _ => within_init) fun _ _ _ hW hok h => within_next hW hok h

theorem availableCount_settle (hdecl : p.declared = true) (size : Int) {status : PoolStatus}
    (hplain : p.available.Plain status.available) :
    (p.settle size status).availableCount = max status.available p.available.named.card := by
  unfold availableCount settle
  dsimp only
  rw [show (p.rebaseline status).declared = true from hdecl]
  exact UidCount.total_rebaseline hplain

theorem available_applyPoll {t : PoolTracker} (hp : t.pools.lookup ref = some p)
    (hdecl : p.declared = true) (size : Int) {status : PoolStatus}
    (hplain : p.available.Plain status.available) :
    (t.applyPoll ref p.generation size status).1.available ref true
      = max status.available p.available.named.card := by
  unfold PoolTracker.available
  rw [lookup_applyPoll, if_pos rfl, hp, Option.map_some, if_neg (not_not.mpr rfl)]
  exact (woke_availableCount _ _ _).trans (availableCount_settle hdecl size hplain)

theorem card_union_le_iff {named : Finset String} {count : Int} (hcount : 0 ≤ count) :
    max count ((named ∪ standIns ref count).card : Int) = count ↔
      named ⊆ standIns ref count := by
  have hcard := card_standIns ref count
  rw [max_eq_left hcount] at hcard
  constructor
  · intro h
    have hle : (named ∪ standIns ref count).card ≤ (standIns ref count).card := by omega
    have hsub : standIns ref count ⊆ named ∪ standIns ref count := subset_union_right
    rw [eq_of_subset_of_card_le hsub hle]
    exact subset_union_left
  · intro h
    rw [union_eq_right.mpr h, hcard, max_self]

/-- **A dropped stream is not a lost count**, as long as no subscription finds a
stand-in named that its Pool no longer has: once everything is read and one
truthful answer is folded, the Tracker counts what the Pool's status says, unless
that is negative. The condition is exact where the replay fits the buffer: the
replay and a truthful answer bring a Pool's count right if and only if nothing that
was named of it is stale. -/
theorem recounted_after_drop (hs : (hubs buffer ns).Reach NothingStale s) {name : String}
    {count : Int} (hknown : s.known name = some (ref, count)) {p : TrackedPool}
    (hp : s.tracker.pools.lookup ref = some p) (hdecl : p.declared = true) {size : Int}
    {status : PoolStatus} (htrue : status.available = count) :
    (s.stream = some ⟨[], true⟩ → s.free = true →
      ((s.tracker.applyPoll ref p.generation size status).1.available ref true = count ↔
        0 ≤ count)) ∧
    (0 ≤ count → ∀ order s', (hubs buffer ns).next s (.subscribe order) = some s' →
      (s.hub.replay order).length ≤ buffer →
      (((p.applyAll (s'.pending ref)).settle size status).availableCount = count ↔
        p.available.named ⊆ standIns ref count)) := by
  have hW := within_reach hs
  obtain rfl : ref.name = name := hW.agrees.named name _ hknown
  have hcount : countOf s.known ref = max count 0 := by
    unfold countOf
    rw [hknown]
    exact if_pos rfl
  refine ⟨fun hread hfree => ?_, fun hnn order s' h hfits => ?_⟩
  · have hpending : s.pending ref = [] := by
      unfold pending
      rw [hread, sending_of_free hfree]
      rfl
    have hwithin := hW.named hread hp
    rw [hpending, hcount] at hwithin
    have hcard := card_le_card hwithin
    have hsize := card_standIns ref (max count 0)
    have hnames : availableAfter p.available.named [] = p.available.named := rfl
    rw [hnames] at hcard
    have hplain : p.available.Plain status.available := by
      rcases Int.lt_or_le count 0 with hneg | hnn
      · exact .inr (Finset.card_eq_zero.mp (by omega))
      · exact .inl (htrue ▸ hnn)
    rw [available_applyPoll hp hdecl size hplain, htrue]
    omega
  · obtain ⟨hperm, hpending⟩ : order.Perm s.hub.available.keys ∧
        s'.pending ref = ofPool ref (s.hub.replay order) := by
      dsimp only [hubs, next] at h
      split at h
      · rename_i hguard
        obtain rfl := Option.some.inj h
        refine ⟨hguard.2.2.2, ?_⟩
        rw [pending_subscribed buffer (sending_of_free hguard.2.1) order ref,
          take_of_length_le hfits]
      · cases h
    rw [availableCount_settle ((applyAll_declared _ _).trans hdecl) size (.inl (htrue ▸ hnn)), htrue,
      applyAll_named, hpending, ofPool_replay_perm hW.agrees ref hperm, hcount,
      max_eq_left hnn]
    have hunion := availableAfter_union_rises p.available.named ref le_rfl count
    rw [standIns_of_le ref le_rfl, union_empty, max_eq_right hnn] at hunion
    rw [hunion]
    exact card_union_le_iff hnn

/-- A subscription with room for one event falls behind while the count rises. -/
def fallenBehindRun : List HubLabel :=
  [.observe (smallPool "" 1), .publish, .subscribe ["small"], .recv, .observe (smallPool "" 3),
    .publish, .publish, .recv, .recv, .subscribe ["small"], .recv]

theorem recounted_after_drop_risen : ∃ s p, (hubs 1 "default").Reach NothingStale s ∧
    s.tracker.pools.lookup smallRef = some p ∧ s.known "small" = some (smallRef, 3) ∧
    (s.tracker.applyPoll smallRef p.generation 3 ⟨3, 0, 0, 0⟩).1.available smallRef true = 3 := by
  have hs := Machine.reach_run (M := hubs 1 "default")
    NothingStale fallenBehindRun hubStart_blank rfl
  have hknown : ((((hubs 1 "default").execWhile (fun s l => decide (NothingStale s l)) hubStart
    fallenBehindRun).get rfl).known "small") = some (smallRef, 3) := rfl
  refine ⟨_, _, hs, rfl, hknown, ?_⟩
  exact ((recounted_after_drop hs hknown rfl rfl rfl).1 rfl rfl).mpr (by decide)

/-! ## A stand-in that stays -/

theorem agrees_reach {ok : HubSys → HubLabel → Prop} (hs : (hubs buffer ns).Reach ok s) :
    s.hub.Agrees s.known :=
  hs.inv (I := fun s => s.hub.Agrees s.known) (fun _ => agrees_init)
    fun _ _ _ hA _ h => agrees_next hA h

theorem publish_all (events : List Event) : ∀ {s : HubSys} {queue : List Event},
    (hubs buffer ns).Reach Machine.any s → s.sending = events → s.stream = some ⟨queue, true⟩ →
    queue.length + events.length ≤ buffer →
    (hubs buffer ns).Reach Machine.any
      { s with sending := [], stream := some ⟨queue ++ events, true⟩ } := by
  induction events with
  | nil =>
    intro s queue hs hsending hstream _
    rw [append_nil, ← hsending, ← hstream]
    exact hs
  | cons e events ih =>
    intro s queue hs hsending hstream hroom
    rw [length_cons] at hroom
    have hnext : (hubs buffer ns).next s .publish
        = some { s with stream := some ⟨queue ++ [e], true⟩, sending := events } := by
      dsimp only [hubs, next]
      rw [hsending]
      dsimp only
      rw [publish_room hstream (by omega)]
    have hrest := ih (hs.tail trivial hnext) rfl rfl (by rw [length_append]; simp; omega)
    rwa [append_assoc] at hrest

theorem recv_all (queue : List Event) : ∀ {s : HubSys} {subscribed : Bool} {p : TrackedPool},
    (hubs buffer ns).Reach Machine.any s → s.stream = some ⟨queue, subscribed⟩ →
    s.tracker.pools.lookup ref = some p →
    ∃ t p', (hubs buffer ns).Reach Machine.any
        { s with stream := some ⟨[], subscribed⟩, tracker := t } ∧
      t.pools.lookup ref = some p' ∧ p'.declared = p.declared ∧
      p'.available.named = availableAfter p.available.named (ofPool ref queue) := by
  induction queue with
  | nil =>
    intro s subscribed p hs hstream hp
    refine ⟨s.tracker, p, ?_, hp, rfl, rfl⟩
    rw [← hstream]
    exact hs
  | cons e queue ih =>
    intro s subscribed p hs hstream hp
    have hnext : (hubs buffer ns).next s .recv = some { s with
        stream := some ⟨queue, subscribed⟩, tracker := (s.tracker.apply e).1 } := by
      dsimp only [hubs, next]
      rw [hstream]
    have hp₁ := lookup_apply s.tracker ref e
    rw [ofPool_cons]
    by_cases heq : e.pool = ref
    · rw [if_pos heq.symm, heq, hp, Option.map_some] at hp₁
      obtain ⟨t, p', hreach, hp', hdecl, hnamed⟩ := ih (hs.tail trivial hnext) rfl hp₁
      refine ⟨t, p', hreach, hp', hdecl.trans ?_, hnamed.trans ?_⟩
      · rw [woke_declared, apply_declared]
      · rw [if_pos heq, woke_available, apply_named]
        rfl
    · rw [if_neg (Ne.symm heq), hp] at hp₁
      obtain ⟨t, p', hreach, hp', hdecl, hnamed⟩ := ih (hs.tail trivial hnext) rfl hp₁
      exact ⟨t, p', hreach, hp', hdecl, hnamed.trans (by rw [if_neg heq])⟩

/-- The small Pool is known with a count and tracked with some names, the hub's
lock is free, and the Tracker has a stream. -/
structure Scene (buffer : Nat) (s : HubSys) (queue : List Event) (subscribed : Bool)
    (count : Int) (named : Finset String) : Prop where
  reach : (hubs buffer "default").Reach Machine.any s
  stream : s.stream = some ⟨queue, subscribed⟩
  free : s.free = true
  idle : s.watch = .idle
  opened : s.hub.closed = false
  known : s.known "small" = some (smallRef, count)
  pool : ∃ p, s.tracker.pools.lookup smallRef = some p ∧ p.declared = true ∧
    p.available.named = named

namespace Scene

variable {queue : List Event} {subscribed : Bool} {n m : Int} {named : Finset String}

theorem observed (h : Scene buffer s queue subscribed n named) (hn : 0 ≤ n) (hm : m ≠ maxInt32) :
    (hubs buffer "default").Reach Machine.any (s.observe "default" (smallPool "" m)) ∧
    s.observe "default" (smallPool "" m) = { s with
      hub := { s.hub with available := s.hub.available.insert "small" ⟨smallRef, max m 0⟩ }
      sending := rises smallRef n m ++ falls smallRef n m
      known := Function.update s.known "small" (some (smallRef, m)) } := by
  refine ⟨h.reach.tail trivial (a := .observe (smallPool "" m)) ?_, ?_⟩
  · dsimp only [hubs, next]
    rw [h.idle]
    exact if_pos h.free
  · have hlast : s.hub.last "small" = ⟨smallRef, n⟩ := by
      unfold Hub.last
      rw [(agrees_reach h.reach).said, h.known]
      exact congrArg (Reported.mk smallRef) (max_eq_left hn)
    have hout : s.hub.observe "default" (smallPool "" m)
        = ({ s.hub with available := s.hub.available.insert "small" ⟨smallRef, max m 0⟩ },
          rises smallRef n m ++ falls smallRef n m) := by
      unfold Hub.observe
      rw [if_neg (by rw [h.opened]; exact Bool.false_ne_true)]
      show s.hub.moveLocked "small" smallRef m = _
      unfold Hub.moveLocked
      rw [hlast]
      rfl
    unfold HubSys.observe
    rw [if_neg (by rw [h.opened]; exact Bool.false_ne_true),
      if_neg (show ¬ (smallPool "" m).status.available = maxInt32 from hm), hout]
    rfl

theorem countUp (h : Scene buffer s queue true n named) (hn : 0 ≤ n) (hm : m ≠ maxInt32)
    (hroom : queue.length + (rises smallRef n m ++ falls smallRef n m).length ≤ buffer) :
    ∃ s', Scene buffer s' (queue ++ (rises smallRef n m ++ falls smallRef n m)) true m named := by
  obtain ⟨hreach, hstate⟩ := h.observed hn hm
  rw [hstate] at hreach
  have hknown : Function.update s.known "small" (some (smallRef, m)) "small"
      = some (smallRef, m) := Function.update_self _ _ _
  refine ⟨_, publish_all _ hreach rfl h.stream hroom, rfl, ?_, h.idle, h.opened, hknown, h.pool⟩
  exact Bool.and_eq_true_iff.mpr ⟨rfl, (Bool.and_eq_true_iff.mp h.free).2⟩

theorem drop (h : Scene buffer s queue true n named) (hn : 0 ≤ n) (hm : n - 1 ≠ maxInt32)
    (hfull : buffer ≤ queue.length) : ∃ s', Scene buffer s' queue false (n - 1) named := by
  obtain ⟨hreach, hstate⟩ := h.observed hn hm
  rw [hstate] at hreach
  have hone : rises smallRef n (n - 1) ++ falls smallRef n (n - 1)
      = [⟨smallRef, standIn smallRef (n - 0), .vmDeletedOnRelease⟩] := by
    unfold rises falls
    rw [show (n - 1 - n).toNat = 0 by omega, show (n - (n - 1)).toNat = 1 by omega]
    rfl
  rw [hone] at hreach
  have hknown : Function.update s.known "small" (some (smallRef, n - 1)) "small"
      = some (smallRef, n - 1) := Function.update_self _ _ _
  refine ⟨_, hreach.tail trivial (a := .publish) rfl, ?_, ?_, h.idle, h.opened, hknown, h.pool⟩
  · show HubSys.publish buffer _ _ = _
    unfold HubSys.publish
    dsimp only
    rw [h.stream]
    exact congrArg some (if_neg (Nat.not_lt.mpr hfull))
  · exact Bool.and_eq_true_iff.mpr ⟨rfl, (Bool.and_eq_true_iff.mp h.free).2⟩

theorem read (h : Scene buffer s queue subscribed n named) :
    ∃ s', Scene buffer s' [] subscribed n (availableAfter named (ofPool smallRef queue)) := by
  obtain ⟨p, hp, hdecl, rfl⟩ := h.pool
  obtain ⟨t, p', hreach, hp', hdecl', hnamed⟩ := recv_all queue h.reach h.stream hp
  exact ⟨_, hreach, rfl, h.free, h.idle, h.opened, h.known, p', hp', hdecl'.trans hdecl, hnamed⟩

theorem resubscribe (h : Scene buffer s [] false n named) :
    ∃ s', Scene buffer s' ((s.hub.replay s.hub.available.keys).take buffer) true n named := by
  have hended : (hubs buffer "default").next s .recv = some s.unsubscribed := by
    dsimp only [hubs, next]
    rw [h.stream]
  refine ⟨_, (h.reach.tail trivial hended).tail trivial
    (a := .subscribe s.hub.available.keys) (if_pos ⟨rfl, h.free, h.opened, .refl _⟩), rfl, h.free,
    h.idle, h.opened, h.known, h.pool⟩

end Scene

theorem scene_start (buffer : Nat) : ∃ s, Scene buffer s [] true 0 ∅ := by
  have hfits : ([] : List Event).take buffer = [] := take_nil
  refine ⟨_, (Machine.Reach.tail (a := .subscribe ["small"]) (Machine.Reach.tail
    (a := .observe (smallPool "" 0)) ⟨hubStart, hubStart_blank, .refl _⟩ trivial rfl) trivial
    rfl), congrArg some (congrArg (HubStream.mk · true) hfits), rfl, rfl, rfl, rfl, _, rfl, rfl, rfl⟩

theorem length_moves (ref : PoolRef) (n : Nat) : (rises ref 0 n ++ falls ref 0 n).length = n := by
  unfold rises falls
  rw [length_append, length_map, length_map, length_range, length_range]
  omega

theorem standIns_mono (ref : PoolRef) {n m : Int} (h : n ≤ m) : standIns ref n ⊆ standIns ref m :=
  image_subset_image (range_subset_range.mpr (Int.toNat_le_toNat h))

theorem availableAfter_again {a : Finset String} : ∀ {w : List Event},
    (∀ e ∈ w, e.type = .vmAvailable ∧ e.vmUID ∈ a) → availableAfter a w = a := by
  intro w
  induction w with
  | nil => exact fun _ => rfl
  | cons e w ih =>
    intro hw
    obtain ⟨htype, huid⟩ := hw e mem_cons_self
    have hsame : e.type.moves e.vmUID a = a := by
      unfold EventType.moves
      rw [htype, if_pos rfl, insert_eq_of_mem huid, ite_self]
    show availableAfter (e.type.moves e.vmUID a) w = a
    rw [hsame]
    exact ih fun e' he => hw e' (mem_cons_of_mem _ he)

/-- A buffer full of new stand-ins, the last of which is withdrawn too late. -/
theorem stale_run {b : Nat} (hb : 0 < b) (hmax : (b : Int) < maxInt32) :
    ∃ s, Scene b s [] true (b - 1) (standIns smallRef b) := by
  obtain ⟨s₀, h₀⟩ := scene_start b
  obtain ⟨s₁, h₁⟩ := h₀.countUp (m := b) le_rfl (ne_of_lt hmax) (by
    rw [length_moves, length_nil, Nat.zero_add])
  rw [nil_append] at h₁
  obtain ⟨s₂, h₂⟩ := h₁.drop (by omega) (by omega) (length_moves smallRef b).ge
  obtain ⟨s₃, h₃⟩ := h₂.read
  -- everything that was buffered is read: the Tracker names all stand-ins
  have hnamed : availableAfter ∅ (ofPool smallRef (rises smallRef 0 b ++ falls smallRef 0 b))
      = standIns smallRef b := by
    rw [ofPool_moves, if_pos rfl, ← standIns_of_le smallRef le_rfl, availableAfter_moves _ le_rfl]
  rw [hnamed] at h₃
  obtain ⟨s₄, h₄⟩ := h₃.resubscribe
  obtain ⟨s₅, h₅⟩ := h₄.read
  have hreplay : availableAfter (standIns smallRef b)
      (ofPool smallRef ((s₃.hub.replay s₃.hub.available.keys).take b)) = standIns smallRef b := by
    refine availableAfter_again fun e he => ?_
    obtain ⟨htype, huid⟩ := replayed (agrees_reach h₃.reach) (.refl _) smallRef e he
    have hcount : countOf s₃.known smallRef = max ((b : Int) - 1) 0 := by
      unfold countOf
      rw [show s₃.known smallRef.name = some (smallRef, (b : Int) - 1) from h₃.known]
      rfl
    rw [hcount] at huid
    exact ⟨htype, standIns_mono smallRef (by omega) huid⟩
  exact ⟨s₅, hreplay ▸ h₅⟩

/-- **A stand-in that stays**: with `subscriberBuffer` stand-ins buffered, the
withdrawal of the last drops the stream. The Tracker reads what is buffered,
subscribes again, reads the replay and folds a truthful answer, and counts a
MicroVM that the Pool does not have. -/
theorem stale_stand_in : ∃ s p, (hubs subscriberBuffer "default").Reach Machine.any s ∧
    s.stream = some ⟨[], true⟩ ∧ s.free = true ∧ s.known "small" = some (smallRef, 1023) ∧
    s.tracker.pools.lookup smallRef = some p ∧ p.declared = true ∧
    (s.tracker.applyPoll smallRef p.generation 2 ⟨1023, 0, 0, 0⟩).1.available smallRef true
      = 1024 := by
  obtain ⟨s, h⟩ := stale_run (b := subscriberBuffer) (by decide) (by decide)
  obtain ⟨p, hp, hdecl, hnamed⟩ := h.pool
  refine ⟨s, p, h.reach, h.stream, h.free, h.known, hp, hdecl, ?_⟩
  rw [available_applyPoll hp hdecl 2 (.inl (by decide)), hnamed, card_standIns]
  decide

end FlintlockRunner.Poolmgr.HubSys
