import FlintlockRunner.Config.Load
import Mathlib.Logic.Function.Basic

/-!
# Which Hosts an environment variable gives its token to

`applyEnv` looks a Host's token up under `HostTokenEnv` of its name, which keeps
letters and digits, in capitals, and turns the rest into underscores. Names that
`Validate` tells apart can come out the same ("host-1" and "host_1"), and their
Hosts then share the variable (`token_reaches_two_hosts`). A variable that is one
Host's alone reaches that Host alone (`token_reaches_one_host_iff`).
-/

namespace FlintlockRunner.Config

/-! ## Names -/

namespace Validator

variable {hosts : List HostEntry} {i : Nat} {h : HostEntry} {seen : SeenHosts}

theorem host_named (hok : (host hosts i h seen).1 = []) :
    blank h.name = false ∧ h.name ∉ seen.names := by
  simp only [host, List.append_eq_nil_iff, requireUnique_eq_nil_iff] at hok
  exact hok.1.1.1.1.1.1.1.2

theorem mem_host_names (hok : (host hosts i h seen).1 = []) {k : String} :
    k ∈ (host hosts i h seen).2.names ↔ k = h.name ∨ k ∈ seen.names := by
  simp only [host]
  exact mem_requireUnique (requireUnique_eq_nil_iff.mpr (host_named hok))

end Validator

/-- No two Hosts of an accepted configuration have the same name. -/
theorem Accepted.hostNames_nodup {c : Config} (h : Accepted c) :
    (c.inventory.hosts.map HostEntry.name).Nodup := by
  have hinventory := Validator.inventory_eq_nil_iff.mp h.inventory
  split at hinventory
  · rw [hinventory]
    exact List.nodup_nil
  · refine (Checks.nodup_of_each HostEntry.name
      (fun (s : Validator.SeenHosts) k => k ∈ s.names) ?_ ?_ hinventory.2.1).1
    · intro i host seen hok
      exact (Validator.host_named hok).2
    · intro i host seen hok
      exact ⟨(Validator.mem_host_names hok).mpr (.inl rfl),
        fun k hk => (Validator.mem_host_names hok).mpr (.inr hk)⟩

/-! ## Variables -/

variable (name : String)

theorem hostTokenEnv_ne_envHostToken : hostTokenEnv name ≠ envHostToken := by
  intro heq
  have hlength := congrArg String.length heq
  simp only [hostTokenEnv, String.length_append] at hlength
  have hstart : envHostTokenStart.length = envHostToken.length + 1 := by decide
  omega

variable (l : Loader) {c : Config} {env : String → Option String} {var : String}
  {host other : HostEntry}

/-- The loader in another environment. -/
def Loader.within (l : Loader) (env : String → Option String) : Loader := { l with env := env }

/-- The tokens of the Inventory, in its order. -/
def tokens (c : Config) : List String := c.inventory.hosts.map HostEntry.token

theorem tokens_applyEnv : tokens (l.applyEnv c) = c.inventory.hosts.map l.hostToken := by
  simp [tokens, Loader.applyEnv]

/-- A Host whose variable is another one keeps its token, whatever becomes of
the variable. -/
theorem hostToken_update_of_ne (value : Option String) (hvar : var ≠ envHostToken)
    (hne : hostTokenEnv other.name ≠ var) :
    (l.within (Function.update env var value)).hostToken other = (l.within env).hostToken other := by
  simp only [Loader.hostToken, Loader.within, Function.update_of_ne hne,
    Function.update_of_ne hvar.symm]

theorem hostToken_update_self {v : String} (heq : hostTokenEnv other.name = var) :
    (l.within (Function.update env var (some v))).hostToken other = v := by
  simp only [Loader.hostToken, Loader.within, heq, Function.update_self]

/-! ## One Host -/

/-- The Host at a position has one token in one environment and another in the
other. -/
def TokenChanges (c : Config) (env env' : String → Option String) (i : Nat) : Prop :=
  (tokens ((l.within env').applyEnv c))[i]? ≠ (tokens ((l.within env).applyEnv c))[i]?

variable {l} {env' : String → Option String} {i : Nat}

theorem tokenChanges_iff :
    TokenChanges l c env env' i ↔
      ∃ other, c.inventory.hosts[i]? = some other ∧
        (l.within env').hostToken other ≠ (l.within env).hostToken other := by
  simp only [TokenChanges, tokens_applyEnv, List.getElem?_map]
  cases c.inventory.hosts[i]? <;> simp

/-- What becomes of a Host's own variable changes no other Host's token, and a new
value changes that Host's: in every environment, exactly when no other name of the
Inventory comes out as the same variable. -/
theorem token_reaches_one_host_iff (l : Loader) (h : Accepted c) (hhost : host ∈ c.inventory.hosts) :
    ((∀ env value i, TokenChanges l c env (Function.update env (hostTokenEnv host.name) value) i →
        c.inventory.hosts[i]? = some host) ∧
      ∀ env v v' i, env (hostTokenEnv host.name) = some v → v' ≠ v →
        c.inventory.hosts[i]? = some host →
        TokenChanges l c env (Function.update env (hostTokenEnv host.name) (some v')) i) ↔
      ∀ other ∈ c.inventory.hosts,
        hostTokenEnv other.name = hostTokenEnv host.name → other.name = host.name := by
  constructor
  · rintro ⟨hothers, -⟩ other hother heq
    obtain ⟨i, hi⟩ := List.mem_iff_getElem?.mp hother
    -- Any two values tell the two Hosts apart; the variable starts out empty.
    have hreached := hothers (fun _ => some "") (some "token") i
      (tokenChanges_iff.mpr ⟨other, hi, ?_⟩)
    · rw [Option.some.inj (hi.symm.trans hreached)]
    · rw [hostToken_update_self l heq]
      simp [Loader.hostToken, Loader.within]
  · intro halone
    have hsame : ∀ other ∈ c.inventory.hosts,
        hostTokenEnv other.name = hostTokenEnv host.name → other = host := fun other hother heq =>
      List.inj_on_of_nodup_map h.hostNames_nodup hother hhost (halone other hother heq)
    constructor
    · intro env value i hchanges
      obtain ⟨other, hi, hne⟩ := tokenChanges_iff.mp hchanges
      rw [hi]
      by_contra hother
      refine hne (hostToken_update_of_ne l value (hostTokenEnv_ne_envHostToken _) fun heq => ?_)
      exact hother (congrArg some (hsame other (List.mem_of_getElem? hi) heq))
    · intro env v v' i hset hne hi
      refine tokenChanges_iff.mpr ⟨host, hi, ?_⟩
      rw [hostToken_update_self l rfl]
      simpa [Loader.hostToken, Loader.within, hset] using hne

/-- The configuration of a file with a second Host, under a name of its own. -/
def withHost : Config :=
  defaulted (batteryFile [smallProfile]
    [smallHost, { smallHost with name := name, endpoint := "10.0.0.2:9090" }])

theorem withHost_hosts : (withHost name).inventory.hosts =
    [smallHost, { smallHost with name := name, endpoint := "10.0.0.2:9090" }] := rfl

theorem withHost_accepted {name : String} (h : Validator.inventory (withHost name) = []) :
    Accepted (withHost name) := by
  refine batteryFile_accepted_of (by decide) (batteryFile_profiles (by simp) rfl ?_) h
  exact List.forall_mem_cons.mpr ⟨fun _ => rfl, List.forall_mem_singleton.mpr fun _ => rfl⟩

/-- A loader that is only asked for the environment. -/
def envLoader : Loader :=
  { env := fun _ => none
    readFile := fun _ => .error ""
    decodeConfig := fun _ => .error ""
    decodeInventory := fun _ => .error ""
    hostname := none
    goarch := .amd64 }

/-- The environment of a process that has one variable. -/
def oneVariable (var value : String) : String → Option String :=
  Function.update (fun _ => none) var (some value)

/-- The names "host-1" and "host-2" have a variable each. -/
theorem token_reaches_one_host_named :
    (∀ env value i,
        TokenChanges envLoader (withHost "host-2") env
          (Function.update env (hostTokenEnv "host-1") value) i →
        (withHost "host-2").inventory.hosts[i]? = some smallHost) ∧
      ∀ env v v' i, env (hostTokenEnv "host-1") = some v → v' ≠ v →
        (withHost "host-2").inventory.hosts[i]? = some smallHost →
        TokenChanges envLoader (withHost "host-2") env
          (Function.update env (hostTokenEnv "host-1") (some v')) i := by
  have hhost : smallHost ∈ (withHost "host-2").inventory.hosts := by
    rw [withHost_hosts]
    exact List.mem_cons_self
  refine (token_reaches_one_host_iff envLoader (withHost_accepted (by decide +kernel)) hhost).mpr ?_
  rw [withHost_hosts]
  decide +kernel

/-- The names "host-1" and "host_1" share one: it gives the token of the first
Host to both, and a new value changes both. -/
theorem token_reaches_two_hosts :
    Accepted (withHost "host_1") ∧ hostTokenEnv "host-1" = "FLINTLOCK_RUNNER_HOST_TOKEN_HOST_1" ∧
      tokens ((envLoader.within (oneVariable "FLINTLOCK_RUNNER_HOST_TOKEN_HOST_1" "old")).applyEnv
        (withHost "host_1")) = ["old", "old"] ∧
      tokens ((envLoader.within (oneVariable "FLINTLOCK_RUNNER_HOST_TOKEN_HOST_1" "new")).applyEnv
        (withHost "host_1")) = ["new", "new"] := by
  exact ⟨withHost_accepted (by decide +kernel), by decide +kernel⟩

end FlintlockRunner.Config
