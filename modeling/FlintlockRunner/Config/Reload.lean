import Mathlib.Data.List.Induction
import FlintlockRunner.Config.Load

/-!
# Reloading (`internal/config/reload.go`)

`Reload` validates the file as a whole and then publishes something else: the
configuration in effect with the Profiles and the Inventory of the file put in.
Two rules of `Validate` hold between those two sections and the ones that stay,
so an accepted file does not make an accepted result. A run of the Reloader is a
list of `Reload` calls, each with its own surroundings: the lock makes their
swaps a sequence, and what the subscribers do afterwards changes nothing here.
-/

namespace FlintlockRunner.Config

/-- `Reloader`, as far as a swap reads and changes it. -/
structure Reloader where
  path : String
  current : Config

/-- One `Reload` call: what `ctx.Err()` answers under the lock, and the
surroundings that `Load` finds. -/
structure ReloadCall where
  ctxErr : Option String
  loader : Loader

/-- Why a `Reload` changed nothing. -/
inductive ReloadError
  | cancelled (err : String)
  | rejected (path : String) (err : LoadError)

/-- The configuration a swap publishes. -/
def splice (old loaded : Config) : Config :=
  { old with profiles := loaded.profiles, inventory := loaded.inventory }

variable (r : Reloader) (call : ReloadCall)

def Reloader.swap : Reloader × Except ReloadError Config :=
  match call.ctxErr with
  | some err => (r, .error (.cancelled err))
  | none =>
    match call.loader.load r.path with
    | .error err => (r, .error (.rejected r.path err))
    | .ok loaded =>
      let next := splice r.current loaded
      ({ r with current := next }, .ok next)

/-- The Reloader after a sequence of `Reload` calls. -/
def Reloader.after (calls : List ReloadCall) : Reloader :=
  calls.foldl (fun r call => (r.swap call).1) r

/-! ## What is in effect after a sequence of calls -/

/-- The configuration that a call loads, if it gets that far. -/
def ReloadCall.loaded (path : String) : Option Config :=
  match call.ctxErr with
  | some _ => none
  | none => (call.loader.load path).toOption

/-- The last configuration that `Load` accepted in a sequence of calls. -/
def lastLoaded (path : String) (calls : List ReloadCall) : Option Config :=
  (calls.filterMap fun call => call.loaded path).getLast?

theorem ReloadCall.loaded_accepted {call : ReloadCall} {path : String} {c : Config}
    (h : call.loaded path = some c) : Accepted c := by
  unfold ReloadCall.loaded at h
  split at h
  · exact absurd h (Option.some_ne_none c).symm
  · cases hload : call.loader.load path with
    | error err => simp [hload, Except.toOption] at h
    | ok d =>
      simp only [hload, Except.toOption, Option.some.injEq] at h
      exact Loader.load_accepted (h ▸ hload)

theorem lastLoaded_accepted {path : String} {calls : List ReloadCall} {c : Config}
    (h : lastLoaded path calls = some c) : Accepted c := by
  obtain ⟨call, -, hcall⟩ := List.mem_filterMap.mp (List.mem_of_getLast? h)
  exact ReloadCall.loaded_accepted hcall

/-- A configuration with the two sections of a loaded one, if there is one. -/
def spliceLoaded (old : Config) : Option Config → Config
  | none => old
  | some loaded => splice old loaded

/-- A swap puts the two sections of what the call loads into the configuration
in effect. -/
theorem Reloader.swap_eq :
    (r.swap call).1 = ⟨r.path, spliceLoaded r.current (call.loaded r.path)⟩ := by
  unfold Reloader.swap ReloadCall.loaded
  cases call.ctxErr with
  | some err => rfl
  | none => cases h : call.loader.load r.path <;> rfl

/-- After any sequence of calls the configuration in effect is the first one
with the two sections of the file that was accepted last. -/
theorem Reloader.after_eq (calls : List ReloadCall) :
    r.after calls = ⟨r.path, spliceLoaded r.current (lastLoaded r.path calls)⟩ := by
  induction calls using List.reverseRecOn with
  | nil => rfl
  | append_singleton calls call ih =>
    have hstep : r.after (calls ++ [call]) = ((r.after calls).swap call).1 := by
      simp only [Reloader.after, List.foldl_append, List.foldl_cons, List.foldl_nil]
    rw [hstep, Reloader.swap_eq, ih]
    cases hcall : call.loaded r.path with
    | none =>
      have hlast : lastLoaded r.path (calls ++ [call]) = lastLoaded r.path calls := by
        simp [lastLoaded, hcall]
      rw [hlast]
      rfl
    | some loaded =>
      have hlast : lastLoaded r.path (calls ++ [call]) = some loaded := by
        simp [lastLoaded, hcall]
      rw [hlast]
      -- Whatever was in effect, the sections that stay are the first ones.
      cases lastLoaded r.path calls <;> rfl

/-! ## Runs over files in memory -/

/-- A `Reload` on an amd64 machine that finds a file which decodes to `file`. -/
def callOn (file : Config) : ReloadCall where
  ctxErr := none
  loader :=
    { env := fun _ => none
      readFile := fun _ => .ok ""
      decodeConfig := fun _ => .ok file
      decodeInventory := fun _ => .error "no such file"
      hostname := some "machine"
      goarch := .amd64 }

variable {file : Config}

section Inline

variable (hinline : file.inventory.file = "")
include hinline

/-- Such a file names no Inventory file and the environment is empty: `Load` checks
the file with its defaults. -/
theorem callOn_load (path : String) :
    (callOn file).loader.load path =
      match validate (defaulted file) with
      | .error err => .error (.invalid path err)
      | .ok () => .ok (defaulted file) := by
  have henv : (callOn file).loader.applyEnv file = file := by
    simp [Loader.applyEnv, Loader.hostToken, callOn]
  have hresolve : (callOn file).loader.resolveInventory (Path.dir path) file = .ok file := by
    simp [Loader.resolveInventory, hinline]
  show (callOn file).loader.parse path (Path.dir path) "" = _
  have hdefaults : applyDefaults (some "machine") .amd64 file = defaulted file := rfl
  simp only [Loader.parse, callOn] at hresolve henv ⊢
  cases hvalid : validate (defaulted file) with
  | error err => simp only [hresolve, henv, hdefaults, hvalid]
  | ok => simp only [hresolve, henv, hdefaults, hvalid]

theorem callOn_loaded (h : Accepted (defaulted file))
    (path : String) : (callOn file).loaded path = some (defaulted file) := by
  have hload := callOn_load hinline path
  rw [show validate (defaulted file) = .ok () from h] at hload
  simp only [ReloadCall.loaded, hload]
  rfl

theorem callOn_refused (h : ¬Accepted (defaulted file))
    (path : String) : (callOn file).loaded path = none := by
  have hload := callOn_load hinline path
  cases hvalid : validate (defaulted file) with
  | ok => exact absurd hvalid h
  | error err =>
    rw [hvalid] at hload
    simp only [ReloadCall.loaded, hload]
    rfl

theorem lastLoaded_callOn (h : Accepted (defaulted file))
    (path : String) : lastLoaded path [callOn file] = some (defaulted file) := by
  simp only [lastLoaded, List.filterMap_cons, callOn_loaded hinline h, List.filterMap_nil,
    List.getLast?_singleton]

end Inline

/-! ## When the result is valid -/

/-- An accepted file whose Profiles and Inventory fit the other sections of the
configuration in effect: it selects the same backend, and its Hosts name no HTTP
cache but those in effect. -/
structure Reloadable (old loaded : Config) : Prop where
  backend : old.poolManager.isClaim = loaded.poolManager.isClaim
  caches : CachesDeclared loaded.inventory.hosts old.hostServices.httpCache.upstreams

/-- The splice of two accepted configurations is accepted exactly when the
second is reloadable into the first. -/
theorem splice_accepted_iff {old loaded : Config} (hold : Accepted old)
    (hloaded : Accepted loaded) : Accepted (splice old loaded) ↔ Reloadable old loaded := by
  obtain ⟨hrest, -, -⟩ := accepted_iff.mp hold
  obtain ⟨-, hprofiles, hinventory⟩ := accepted_iff.mp hloaded
  rw [Validator.inventory_eq_nil_iff] at hinventory
  constructor
  · intro h
    have hspliced := Validator.inventory_eq_nil_iff.mp h.inventory
    simp only [splice] at hspliced
    cases hb : old.poolManager.isClaim <;> cases hb' : loaded.poolManager.isClaim <;>
      simp only [hb, hb', Bool.false_eq_true, if_false, if_true] at hspliced hinventory
    · exact ⟨hb.trans hb'.symm, hspliced.2.2⟩
    · exact absurd hinventory hspliced.1
    · exact absurd hspliced hinventory.1
    · refine ⟨hb.trans hb'.symm, ?_⟩
      simp [CachesDeclared, hspliced]
  · intro h
    refine accepted_iff.mpr ⟨hrest, ?_, ?_⟩
    · rw [← hprofiles]
      exact Validator.profiles_congr rfl (fun _ => Iff.rfl) h.backend
    · rw [Validator.inventory_eq_nil_iff]
      simp only [splice, h.backend]
      split
      next hb => rwa [if_pos hb] at hinventory
      next hb =>
        rw [if_neg hb] at hinventory
        exact ⟨hinventory.1, hinventory.2.1, h.caches⟩

/-- After any sequence of `Reload` calls from an accepted configuration, the
configuration in effect is accepted exactly when the file that `Load` accepted
last, if it accepted one, is reloadable into the first configuration. -/
theorem current_accepted_iff (path : String) (initial : Config) (h : Accepted initial)
    (calls : List ReloadCall) :
    Accepted (Reloader.after ⟨path, initial⟩ calls).current ↔
      ∀ loaded, lastLoaded path calls = some loaded → Reloadable initial loaded := by
  rw [Reloader.after_eq]
  cases hlast : lastLoaded path calls with
  | none => exact ⟨fun _ loaded hloaded => absurd hloaded.symm (Option.some_ne_none loaded),
      fun _ => h⟩
  | some loaded =>
    have hsplice := splice_accepted_iff h (lastLoaded_accepted hlast)
    constructor
    · rintro haccepted _ ⟨⟩
      exact hsplice.mp haccepted
    · intro hreloadable
      exact hsplice.mpr (hreloadable loaded rfl)

/-- A file for the battery backend. -/
def firstFile : Config := batteryFile [smallProfile] [smallHost]

/-- The same file with a second Profile. -/
def editedFile : Config :=
  batteryFile [smallProfile, { smallProfile with name := "large", vcpu := 8 }] [smallHost]

theorem editedFile_accepted : Accepted (defaulted editedFile) :=
  batteryFile_accepted_of (by decide) (by decide +kernel) batteryFile_accepted.inventory

/-- A file for the claim backend whose Pool is so large that the default of
`concurrent` wraps, which `Load` refuses. -/
def oversizedFile : Config :=
  claimFile [{ smallProfile with pool := { smallProfile.pool with size := 4611686018427387904 } }]

theorem oversizedFile_refused : ¬Accepted (defaulted oversizedFile) := by
  intro h
  have hgitlab : Validator.gitlab (defaulted oversizedFile).gitLab ≠ [] := by decide +kernel
  exact hgitlab (accepted_iff.mp h).1.1

/-- An operator adds a Profile and later turns to a file that `Load` refuses: what
is in effect is accepted. -/
theorem current_accepted_iff_edited :
    Accepted (Reloader.after ⟨"config.yaml", defaulted firstFile⟩
      [callOn editedFile, callOn oversizedFile]).current := by
  refine (current_accepted_iff _ _ batteryFile_accepted _).mpr ?_
  intro loaded hlast
  have hedited := callOn_loaded rfl editedFile_accepted "config.yaml"
  have hoversized := callOn_refused rfl oversizedFile_refused "config.yaml"
  simp only [lastLoaded, List.filterMap_cons, hedited, hoversized, List.filterMap_nil,
    List.getLast?_singleton] at hlast
  obtain rfl := Option.some.inj hlast
  refine ⟨rfl, fun host hhost name hname => ?_⟩
  obtain rfl := List.mem_singleton.mp hhost
  exact absurd hname (AList.notMem_empty name)

/-- The first file turned to the claim backend. -/
def claimedFile : Config := claimFile [smallProfile]

/-- The first file with an HTTP cache and its address on the Host. -/
def cachedFile : Config :=
  { batteryFile [smallProfile] [{ smallHost with
      services := { smallHost.services with
        httpCache := AList.singleton "npm" "10.0.0.1:3128" } }] with
    hostServices := { (default : HostServices) with
      httpCache := { (default : HTTPCache) with
        upstreams := [⟨"npm", "https://registry.npmjs.org", 0, 0, "NPM_CONFIG_REGISTRY"⟩] } } }

/-- A file that is accepted and cannot be reloaded puts a configuration in effect
that is not accepted. -/
theorem reload_unaccepted (hinline : file.inventory.file = "") (h : Accepted (defaulted file))
    (hnot : ¬Reloadable (defaulted firstFile) (defaulted file)) :
    ¬Accepted (Reloader.after ⟨"config.yaml", defaulted firstFile⟩ [callOn file]).current := by
  rw [Reloader.after_eq, lastLoaded_callOn hinline h]
  exact fun haccepted => hnot ((splice_accepted_iff batteryFile_accepted h).mp haccepted)

/-- An operator turns to the claim backend, or declares an HTTP cache and gives
the Host its address. Either file is accepted and puts a configuration in effect
that is not: a battery backend without a Host, or a Host with the address of an
HTTP cache that is not declared. -/
theorem reload_publishes_invalid :
    Accepted (defaulted firstFile) ∧
    (lastLoaded "config.yaml" [callOn claimedFile] = some (defaulted claimedFile) ∧
      ¬Accepted (Reloader.after ⟨"config.yaml", defaulted firstFile⟩
        [callOn claimedFile]).current) ∧
    (lastLoaded "config.yaml" [callOn cachedFile] = some (defaulted cachedFile) ∧
      ¬Accepted (Reloader.after ⟨"config.yaml", defaulted firstFile⟩
        [callOn cachedFile]).current) := by
  have hprofiles : Validator.profiles (defaulted cachedFile) = [] :=
    batteryFile_profiles (List.cons_ne_nil _ _) rfl (List.forall_mem_singleton.mpr fun _ => rfl)
  have hcached : Accepted (defaulted cachedFile) :=
    batteryFile_accepted.replace (by decide) hprofiles (by decide +kernel) (by decide +kernel)
  refine ⟨batteryFile_accepted, ⟨lastLoaded_callOn rfl claimFile_accepted _, ?_⟩,
    ⟨lastLoaded_callOn rfl hcached _, ?_⟩⟩
  · exact reload_unaccepted rfl claimFile_accepted fun h => absurd h.backend (by decide)
  · refine reload_unaccepted rfl hcached fun h => ?_
    have hdeclared := h.caches _ (List.mem_singleton_self _) "npm" (by decide)
    exact absurd hdeclared (by decide)

end FlintlockRunner.Config
