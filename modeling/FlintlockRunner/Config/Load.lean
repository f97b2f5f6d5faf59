import FlintlockRunner.Base.Path
import FlintlockRunner.Config.Accepted

/-!
# Loading a configuration (`internal/config/load.go`)

`Load` reads a file, decodes it, resolves an Inventory that stands in a file of
its own, overrides the secrets from the environment, applies the defaults and
validates. What the process and the YAML decoder contribute is a `Loader`: the
environment and the files at the moment of the call, and what the strict decoder
makes of a text. The warnings that `Load` logs change nothing and are left out,
as is the time an Inventory file says it was generated at.
-/

namespace FlintlockRunner.Config

/-- The surroundings of one `Load`. -/
structure Loader where
  env : String → Option String
  readFile : String → Except String String
  decodeConfig : String → Except String Config
  decodeInventory : String → Except String (List HostEntry)
  hostname : Option String
  goarch : Architecture

/-- Why a `Load` failed. -/
inductive LoadError
  | read (path err : String)
  | parse (name err : String)
  | readInventory (path err : String)
  | parseInventory (path err : String)
  | ambiguousInventory (err : ValidationError)
  | invalid (name : String) (err : ValidationError)

/-- The text of a `Load` error. -/
def LoadError.text : LoadError → String
  | .read path err => "config: read " ++ path ++ ": " ++ err
  | .parse name err => "config: parse " ++ name ++ ": " ++ err
  | .readInventory path err => "config: read inventory file " ++ path ++ ": " ++ err
  | .parseInventory path err => "config: parse inventory file " ++ path ++ ": " ++ err
  | .ambiguousInventory err => "config: " ++ err.text
  | .invalid name err => "config: " ++ name ++ ": " ++ err.text

variable (l : Loader)

/-- The Inventory is inline or in a file of its own. -/
def Loader.resolveInventory (dir : String) (c : Config) : Except LoadError Config :=
  if c.inventory.file = "" then .ok c
  else if c.inventory.hosts ≠ [] then
    .error (.ambiguousInventory ⟨[⟨"inventory", "file and hosts are mutually exclusive; supply the "
      ++ "Inventory inline or by reference, not both"⟩], List.cons_ne_nil _ _⟩)
  else
    let path :=
      if Path.isAbs c.inventory.file then c.inventory.file else Path.join dir c.inventory.file
    match l.readFile path with
    | .error err => .error (.readInventory path err)
    | .ok data =>
      match l.decodeInventory data with
      | .error err => .error (.parseInventory path err)
      | .ok hosts => .ok { c with inventory := { c.inventory with hosts := hosts } }

def envGitLabToken : String := "FLINTLOCK_RUNNER_GITLAB_TOKEN"

def envHostToken : String := "FLINTLOCK_RUNNER_HOST_TOKEN"

/-- `EnvHostTokenPrefix`. -/
def envHostTokenStart : String := "FLINTLOCK_RUNNER_HOST_TOKEN_"

/-- One character of `HostTokenEnv`: an upper-case letter or a digit, or an
underscore in place of anything else. The two letters outside ASCII that have an
ASCII upper case are the dotless i and the long s. -/
def hostTokenChar (c : Char) : Char :=
  if Strings.isLower c then Char.ofNat (c.toNat - 32)
  else if Strings.isUpper c || Strings.isDigit c then c
  else if c = 'ı' then 'I'
  else if c = 'ſ' then 'S'
  else '_'

/-- The variable with the token of a Host. -/
def hostTokenEnv (hostName : String) : String :=
  envHostTokenStart ++ String.ofList (hostName.toList.map hostTokenChar)

/-- The body of `applyEnv`'s loop: a Host's own variable wins over the one for
all Hosts, and both over the file. -/
def Loader.hostToken (h : HostEntry) : String :=
  match l.env (hostTokenEnv h.name) with
  | some token => token
  | none => (l.env envHostToken).getD h.token

/-- Tokens from the environment come before those of the file. -/
def Loader.applyEnv (c : Config) : Config :=
  { c with
    gitLab := { c.gitLab with token := (l.env envGitLabToken).getD c.gitLab.token }
    inventory := { c.inventory with
      hosts := c.inventory.hosts.map fun h => { h with token := l.hostToken h } } }

/-- Decoded, completed, defaulted and validated, in this order. -/
def Loader.parse (name dir data : String) : Except LoadError Config :=
  match l.decodeConfig data with
  | .error err => .error (.parse name err)
  | .ok decoded =>
    match l.resolveInventory dir decoded with
    | .error err => .error err
    | .ok resolved =>
      let c := applyDefaults l.hostname l.goarch (l.applyEnv resolved)
      match validate c with
      | .error err => .error (.invalid name err)
      | .ok () => .ok c

def Loader.load (path : String) : Except LoadError Config :=
  match l.readFile path with
  | .error err => .error (.read path err)
  | .ok data => l.parse path (Path.dir path) data

theorem Loader.load_accepted {l : Loader} {path : String} {c : Config}
    (h : l.load path = .ok c) : Accepted c := by
  unfold Loader.load at h
  split at h
  · exact nomatch h
  · unfold Loader.parse at h
    split at h
    · exact nomatch h
    · split at h
      · exact nomatch h
      · dsimp only at h
        split at h
        · exact nomatch h
        next hvalid =>
          cases h
          exact hvalid

end FlintlockRunner.Config
