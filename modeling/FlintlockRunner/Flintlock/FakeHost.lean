import FlintlockRunner.Base.Machine
import FlintlockRunner.Base.PathElems
import FlintlockRunner.Flintlock.SSHConn
import Mathlib.Data.List.AList

/-!
# The fake Host's directories (`flintlock/fake`)

A MicroVM of the fake Host is a directory under the sandbox root: `createMicroVM`
makes it, `ExecCommand` runs commands in it and `deleteMicroVM` removes it with
everything below. Its name is the uid of the spec, which the caller may choose, and
`filepath.Join` reads it as a path.

- `sandboxDir` refuses a working directory outside the MicroVM's sandbox.
- Nothing checks the uid. A uid that climbs with `..` and does not lead back below the
  root (`Path.escapes`) leaves it; every other uid stays, because one that comes to the
  root or above comes to a directory that exists, which `Mkdir` refuses.

The calls are cut where they take `h.mu`: a deletion and the start of a command come
after the section that looked the MicroVM up. `dirs` is what exists on disk, which
others may change between the steps. The root itself, and what is missing above it, is
made by `MkdirAll` (`Action.mkdirAll`). Symbolic links are left out, and so are a
temporary root and what a command does once it runs.
-/

namespace FlintlockRunner.Flintlock.FakeHost

open List Strings

/-! ## The Host -/

/-- A gRPC status. -/
structure Status where
  code : Code
  message : String
  deriving DecidableEq, Repr

/-- `MicroVMStatus_MicroVMState`. -/
inductive VMState
  | pending | created | failed | deleting
  deriving DecidableEq, Repr

/-- Its name in lower case. -/
def VMState.text : VMState → String
  | .pending => "pending"
  | .created => "created"
  | .failed => "failed"
  | .deleting => "deleting"

/-- The fields of a `MicroVMSpec` that `createMicroVM` reads. -/
structure Spec where
  uid : String
  id : String
  nameSpace : String
  deriving DecidableEq, Repr

/-- A MicroVM with the directory that it runs in. -/
structure MicroVM where
  spec : Spec
  version : Nat
  state : VMState
  vsockPath : String
  sandbox : String
  deriving DecidableEq, Repr

/-- `FakeHostConfig`: the sandbox root, and whether the boot delay is positive. -/
structure HostConfig where
  sandboxRoot : String
  bootDelay : Bool

/-- A command that `attachExec` let in. -/
structure Exec where
  uid : String
  sandbox : String
  cwd : String
  deriving DecidableEq, Repr

/-- What the Host does to a directory. -/
inductive Action
  | mkdirAll (root : String)
  | mkdir (dir : String)
  | start (uid sandbox dir : String)
  | removeAll (dir : String)
  deriving DecidableEq, Repr

/-- `Host`: its MicroVMs by uid, their records, what exists on disk, the sandboxes that
are to be removed, the commands that are to be started, and what was done. -/
structure Host where
  closed : Bool
  vms : AList fun _ : String => Nat
  recs : List MicroVM
  dirs : List String
  removing : List String
  starting : List Exec
  log : List Action

def Host.new (dirs : List String) : Host := ⟨false, ∅, [], dirs, [], [], []⟩

/-! ## Creating -/

def errNotFound (uid : String) : Status := ⟨.notFound, "microvm spec " ++ uid ++ " not found"⟩

def errClosedStatus : Status := ⟨.unavailable, "fake host closed"⟩

/-- `newUID` from the bytes that `rand.Read` gave. -/
def newUID (bytes : List UInt8) : String :=
  String.ofList (bytes.flatMap fun b => [hexDigit (b.toNat / 16), hexDigit (b.toNat % 16)])

/-- What the system answers `createMicroVM`: random bytes, the errors of `MkdirAll` and
`Mkdir`, and the fault `CreateFails`. -/
structure CreateEnv where
  rand : Except String (List UInt8)
  mkdirAll : Option String
  mkdir : Option String
  createFails : Bool

/-- The directories that exist once `MkdirAll` returned. -/
def ancestors (root : String) : List String := (Path.names root).inits.map Path.rooted

/-- `os.Mkdir`: it fails where something exists and where the parent does not. -/
def mkdirError (dirs : List String) (dir : String) (err : Option String) : Option String :=
  if dir ∈ dirs then some ("mkdir " ++ dir ++ ": file exists")
  else if Path.dir dir ∉ dirs then some ("mkdir " ++ dir ++ ": no such file or directory")
  else err

/-- The uid of a new MicroVM. -/
def chooseUID (uid : String) (env : CreateEnv) : Except Status String :=
  if uid = "" then
    match env.rand with
    | .error e => .error ⟨.internal, "generating uid: " ++ e⟩
    | .ok bytes => .ok (newUID bytes)
  else .ok uid

/-- The boot succeeds or fails. -/
def finishBootLocked (createFails : Bool) (vm : MicroVM) : MicroVM :=
  if createFails then { vm with state := .failed, version := vm.version + 1 }
  else
    { vm with
      state := .created
      vsockPath := Path.join vm.sandbox "vsock.sock"
      version := vm.version + 1 }

namespace Host

variable (cfg : HostConfig) (h : Host)

/-- `createMicroVM` once the sandbox is made. -/
def record (spec : Spec) (uid : String) (env : CreateEnv) : Host :=
  let sandbox := Path.join cfg.sandboxRoot uid
  let vm : MicroVM :=
    { spec := ⟨uid, if spec.id = "" then uid else spec.id,
        if spec.nameSpace = "" then "default" else spec.nameSpace⟩
      version := 1
      state := .pending
      vsockPath := ""
      sandbox := sandbox }
  { h with
    vms := h.vms.insert uid h.recs.length
    recs := h.recs ++ [if cfg.bootDelay then vm else finishBootLocked env.createFails vm]
    dirs := sandbox :: h.dirs
    log := h.log ++ [.mkdir sandbox] }

/-- `CreateMicroVM`: the uid the caller chose goes into the path. -/
def createMicroVM (spec : Option Spec) (env : CreateEnv) : Host × Except Status String :=
  match spec with
  | none =>
    (h, .error ⟨.invalidArgument, "invalid create microvm request: MicroVMSpec required"⟩)
  | some spec =>
    if h.closed then (h, .error errClosedStatus)
    else
      match chooseUID spec.uid env with
      | .error status => (h, .error status)
      | .ok uid =>
        if uid ∈ h.vms then
          (h, .error ⟨.alreadyExists, "microvm " ++ uid ++ " already exists"⟩)
        else
          match env.mkdirAll with
          | some e =>
            (h, .error ⟨.internal, "creating sandbox root " ++ cfg.sandboxRoot ++ ": " ++ e⟩)
          | none =>
            let h := { h with
              dirs := ancestors cfg.sandboxRoot ++ h.dirs
              log := h.log ++ [.mkdirAll cfg.sandboxRoot] }
            match mkdirError h.dirs (Path.join cfg.sandboxRoot uid) env.mkdir with
            | some e => (h, .error ⟨.internal,
                "creating sandbox " ++ Path.join cfg.sandboxRoot uid ++ ": " ++ e⟩)
            | none => (h.record cfg spec uid env, .ok uid)

/-- `bootMicroVM` once its timer fired. -/
def bootMicroVM (i : Nat) (createFails : Bool) : Host :=
  match h.recs[i]? with
  | none => h
  | some vm =>
    if h.vms.lookup vm.spec.uid = some i ∧ vm.state = .pending then
      { h with recs := h.recs.set i (finishBootLocked createFails vm) }
    else h

variable (uid : String)

/-- The MicroVM under a uid, with the place of its record. -/
def lookup : Option (Nat × MicroVM) :=
  (h.vms.lookup uid).bind fun i => h.recs[i]?.map (i, ·)

/-! ## Deleting -/

/-- The section of `deleteMicroVM`; the sandbox is removed after it. -/
def deleteMicroVM : Host × Except Status Unit :=
  if uid = "" then (h, .error ⟨.invalidArgument, "invalid request"⟩)
  else if h.closed then (h, .error errClosedStatus)
  else
    match h.lookup uid with
    | none => (h, .error (errNotFound uid))
    | some (i, vm) =>
      ({ h with
        vms := h.vms.erase uid
        recs := h.recs.set i { vm with state := .deleting }
        removing := h.removing ++ [vm.sandbox] }, .ok ())

/-- The `RemoveAll` of `deleteMicroVM`. -/
def removeAll (k : Nat) (err : Option String) : Host × Except Status Unit :=
  match h.removing[k]? with
  | none => (h, .ok ())
  | some dir =>
    let h := { h with removing := h.removing.eraseIdx k, log := h.log ++ [.removeAll dir] }
    match err with
    | some e => (h, .error ⟨.internal, "removing sandbox " ++ dir ++ ": " ++ e⟩)
    | none =>
      ({ h with dirs := h.dirs.filter fun d => d ≠ dir && !startsWith d (dir ++ "/") }, .ok ())

/-! ## Commands -/

/-- The sandbox of a MicroVM that is up. -/
def attachExec : Except Status String :=
  if h.closed then .error errClosedStatus
  else
    match h.lookup uid with
    | none => .error (errNotFound uid)
    | some (_, vm) =>
      if vm.state ≠ .created then
        .error ⟨.failedPrecondition, "microvm is not ready (state: " ++ vm.state.text ++ ")"⟩
      else .ok vm.sandbox

end Host

/-- `ExecStart`, as far as it decides whether and where a command starts. -/
structure ExecStart where
  uid : String
  cmd : String
  shell : Bool
  cwd : String
  deriving DecidableEq, Repr

/-- The directory a command starts in, if it is inside the sandbox. -/
def sandboxDir (sandbox cwd : String) : Except String String :=
  if cwd = "" then .ok sandbox
  else
    let cwd := if Path.isAbs cwd then Path.clean cwd else cwd
    let dir := Path.join sandbox cwd
    if dir ≠ sandbox ∧ ¬ startsWith dir (sandbox ++ "/") then
      .error ("cwd " ++ quote cwd ++ " escapes the microvm sandbox")
    else .ok dir

/-- `execCommand` up to the start of the command. -/
def Host.execCommand (h : Host) (start : Option ExecStart) : Host × Except Status Unit :=
  let refused : Status :=
    ⟨.invalidArgument, "first message must be a start message with uid and cmd set"⟩
  match start with
  | none => (h, .error refused)
  | some start =>
    if start.uid = "" ∨ (start.cmd = "" ∧ ¬ start.shell) then (h, .error refused)
    else
      match h.attachExec start.uid with
      | .error status => (h, .error status)
      | .ok sandbox =>
        ({ h with starting := h.starting ++ [⟨start.uid, sandbox, start.cwd⟩] }, .ok ())

/-- `buildCommand` and the start of its command; `stat` is how the error about a
working directory that is none goes on. -/
def Host.startCommand (h : Host) (k : Nat) (stat : Option String) : Host × Except String Unit :=
  match h.starting[k]? with
  | none => (h, .ok ())
  | some x =>
    let h := { h with starting := h.starting.eraseIdx k }
    match sandboxDir x.sandbox x.cwd with
    | .error e => (h, .error e)
    | .ok dir =>
      match stat with
      | some e => (h, .error ("cwd " ++ quote x.cwd ++ e))
      | none => ({ h with log := h.log ++ [.start x.uid x.sandbox dir] }, .ok ())

/-! ## Every call, in any order -/

/-- A step of a call, the end of the Host, or a change that others make on disk. -/
inductive Label
  | create (spec : Option Spec) (env : CreateEnv)
  | boot (i : Nat) (createFails : Bool)
  | delete (uid : String)
  | removeAll (k : Nat) (err : Option String)
  | exec (start : Option ExecStart)
  | start (k : Nat) (stat : Option String)
  | close
  | others (dirs : List String)

/-- One call, or one step of a goroutine. -/
def Host.next (cfg : HostConfig) (h : Host) : Label → Host
  | .create spec env => (h.createMicroVM cfg spec env).1
  | .boot i createFails => h.bootMicroVM i createFails
  | .delete uid => (h.deleteMicroVM uid).1
  | .removeAll k err => (h.removeAll k err).1
  | .exec start => (h.execCommand start).1
  | .start k stat => (h.startCommand k stat).1
  | .close => { h with closed := true }
  | .others dirs => { h with dirs := dirs }

/-- The fake Host in use. -/
def machine (cfg : HostConfig) : Machine Host Label where
  init h := ∃ dirs, h = Host.new dirs
  next h l := some (h.next cfg l)

/-- The uid of a new MicroVM does not climb out of the root. -/
def Label.keeps (root : String) : Label → Bool
  | .create (some spec) _ => !Path.escapes root spec.uid
  | _ => true

/-- A clean absolute sandbox root other than `/`. -/
structure CleanRoot (root : String) : Prop where
  isAbs : Path.isAbs root = true
  clean : Path.clean root = root
  ne_slash : root ≠ "/"

/-- A path is strictly below the root once it is cleaned. -/
def Below (root dir : String) : Prop := startsWith (Path.clean dir) (root ++ "/") = true

/-- The directory of an action; `MkdirAll` is about the root itself. -/
def Action.dir? : Action → Option String
  | .mkdirAll _ => none
  | .mkdir dir | .start _ _ dir | .removeAll dir => some dir

/-! ## What the Host knows of its sandboxes -/

/-- What an action rests on: the sandbox of a MicroVM, and for a command that its
working directory passed the check. -/
def Action.Of (P : String → String → Prop) : Action → Prop
  | .mkdirAll _ => True
  | .mkdir dir | .removeAll dir => ∃ uid, P uid dir
  | .start uid sandbox dir => P uid sandbox ∧ ∃ cwd, sandboxDir sandbox cwd = .ok dir

/-- `P uid sandbox` holds of every MicroVM the Host has, had, or acted on. -/
structure Sandboxed (P : String → String → Prop) (h : Host) : Prop where
  recs : ∀ vm ∈ h.recs, P vm.spec.uid vm.sandbox
  known : ∀ uid i, h.vms.lookup uid = some i → ∃ vm, h.recs[i]? = some vm ∧ vm.spec.uid = uid
  removing : ∀ dir ∈ h.removing, ∃ uid, P uid dir
  starting : ∀ x ∈ h.starting, P x.uid x.sandbox
  log : ∀ a ∈ h.log, a.Of P

variable {cfg : HostConfig} {h h' : Host} {P : String → String → Prop}

theorem sandboxed_new (P : String → String → Prop) (dirs : List String) :
    Sandboxed P (Host.new dirs) := by
  constructor <;> simp [Host.new]

theorem forall_mem_concat {α : Type*} {p : α → Prop} {l : List α} {a : α} (hl : ∀ x ∈ l, p x)
    (ha : p a) : ∀ x ∈ l ++ [a], p x := by
  intro x hx
  rcases mem_append.mp hx with hx | hx
  · exact hl x hx
  · rw [mem_singleton.mp hx]
    exact ha

@[simp] theorem finishBootLocked_spec (createFails : Bool) (vm : MicroVM) :
    (finishBootLocked createFails vm).spec = vm.spec := by
  unfold finishBootLocked
  split <;> rfl

@[simp] theorem finishBootLocked_sandbox (createFails : Bool) (vm : MicroVM) :
    (finishBootLocked createFails vm).sandbox = vm.sandbox := by
  unfold finishBootLocked
  split <;> rfl

/-- `createMicroVM` refuses, or the directory it made was none of the root's own. -/
theorem createMicroVM_cases (cfg : HostConfig) (h : Host) (spec : Option Spec) (env : CreateEnv) :
    (h.createMicroVM cfg spec env).1 = h ∨
    ∃ dirs, (h.createMicroVM cfg spec env).1 =
        { h with dirs := dirs, log := h.log ++ [.mkdirAll cfg.sandboxRoot] } ∨
      ∃ spec₀ uid, spec = some spec₀ ∧ chooseUID spec₀.uid env = .ok uid ∧
        Path.join cfg.sandboxRoot uid ∉ ancestors cfg.sandboxRoot ∧
        (h.createMicroVM cfg spec env).1 = Host.record cfg
          { h with dirs := dirs, log := h.log ++ [.mkdirAll cfg.sandboxRoot] } spec₀ uid env := by
  cases spec with
  | none => exact .inl rfl
  | some spec =>
    unfold Host.createMicroVM
    dsimp only
    split
    · exact .inl rfl
    · split
      · exact .inl rfl
      · rename_i uid hchoose
        split
        · exact .inl rfl
        · split
          · exact .inl rfl
          · refine .inr ⟨ancestors cfg.sandboxRoot ++ h.dirs, ?_⟩
            split
            · exact .inl rfl
            · rename_i hmkdir
              refine .inr ⟨spec, uid, rfl, hchoose, ?_, rfl⟩
              intro hmem
              rw [mkdirError, if_pos (mem_append_left _ hmem)] at hmkdir
              cases hmkdir

namespace Sandboxed

variable (hs : Sandboxed P h)
include hs

theorem set {i : Nat} {vm vm' : MicroVM} (hi : h.recs[i]? = some vm)
    (hspec : vm'.spec = vm.spec) (hsandbox : vm'.sandbox = vm.sandbox) :
    Sandboxed P { h with recs := h.recs.set i vm' } where
  recs := by
    intro vm₀ hvm₀
    rcases mem_or_eq_of_mem_set hvm₀ with hvm₀ | rfl
    · exact hs.recs vm₀ hvm₀
    · rw [hspec, hsandbox]
      exact hs.recs vm (mem_of_getElem? hi)
  known := by
    intro uid j hj
    obtain ⟨vm₀, hvm₀, huid⟩ := hs.known uid j hj
    by_cases hij : i = j
    · subst hij
      rw [hi] at hvm₀
      cases hvm₀
      refine ⟨vm', ?_, hspec ▸ huid⟩
      exact List.getElem?_set_self (List.getElem?_eq_some_iff.mp hi).1
    · exact ⟨vm₀, (List.getElem?_set_ne hij).trans hvm₀, huid⟩
  removing := hs.removing
  starting := hs.starting
  log := hs.log

theorem act {a : Action} (ha : a.Of P) : Sandboxed P { h with log := h.log ++ [a] } :=
  { hs with log := forall_mem_concat hs.log ha }

theorem dirs (dirs : List String) : Sandboxed P { h with dirs := dirs } :=
  { hs with }

theorem lookup {uid : String} {i : Nat} {vm : MicroVM} (hl : h.lookup uid = some (i, vm)) :
    h.recs[i]? = some vm ∧ vm.spec.uid = uid ∧ P uid vm.sandbox := by
  obtain ⟨j, hj, hmap⟩ := Option.bind_eq_some_iff.mp hl
  obtain ⟨vm', hvm', heq⟩ := Option.map_eq_some_iff.mp hmap
  cases heq
  obtain ⟨vm₀, hvm₀, huid⟩ := hs.known uid i hj
  rw [hvm'] at hvm₀
  cases hvm₀
  exact ⟨hvm', huid, huid ▸ hs.recs vm (mem_of_getElem? hvm')⟩

/-! ## What the calls keep -/

theorem record (spec : Spec) {uid : String} (env : CreateEnv)
    (hP : P uid (Path.join cfg.sandboxRoot uid)) : Sandboxed P (h.record cfg spec uid env) := by
  have hlt : ∀ uid i, h.vms.lookup uid = some i → i < h.recs.length := by
    intro uid i hi
    obtain ⟨vm, hvm, -⟩ := hs.known uid i hi
    exact (List.getElem?_eq_some_iff.mp hvm).1
  constructor
  · refine forall_mem_concat hs.recs ?_
    split
    · exact hP
    · rw [finishBootLocked_spec, finishBootLocked_sandbox]
      exact hP
  · intro uid' i hi
    dsimp only [Host.record] at hi ⊢
    by_cases huid : uid' = uid
    · rw [huid, AList.lookup_insert] at hi
      cases hi
      refine ⟨_, List.getElem?_concat_length, ?_⟩
      split
      · exact huid.symm
      · rw [finishBootLocked_spec]
        exact huid.symm
    · rw [AList.lookup_insert_ne huid] at hi
      obtain ⟨vm, hvm, hvmuid⟩ := hs.known uid' i hi
      exact ⟨vm, (List.getElem?_append_left (hlt uid' i hi)).trans hvm, hvmuid⟩
  · exact hs.removing
  · exact hs.starting
  · exact forall_mem_concat hs.log ⟨uid, hP⟩

theorem createMicroVM (spec : Option Spec) (env : CreateEnv)
    (hnew : ∀ spec₀ uid, spec = some spec₀ → chooseUID spec₀.uid env = .ok uid →
      Path.join cfg.sandboxRoot uid ∉ ancestors cfg.sandboxRoot →
      P uid (Path.join cfg.sandboxRoot uid)) : Sandboxed P (h.createMicroVM cfg spec env).1 := by
  obtain heq | ⟨dirs, heq | ⟨spec₀, uid, hspec, hchoose, hfresh, heq⟩⟩ :=
    createMicroVM_cases cfg h spec env
  · rw [heq]
    exact hs
  · rw [heq]
    exact (hs.dirs dirs).act (a := .mkdirAll cfg.sandboxRoot) trivial
  · have hmade := (hs.dirs dirs).act (a := .mkdirAll cfg.sandboxRoot) trivial
    rw [heq]
    exact hmade.record spec₀ env (hnew spec₀ uid hspec hchoose hfresh)

theorem bootMicroVM (i : Nat) (createFails : Bool) : Sandboxed P (h.bootMicroVM i createFails) := by
  unfold Host.bootMicroVM
  split
  · exact hs
  · rename_i vm hvm
    split
    · exact hs.set hvm (finishBootLocked_spec _ _) (finishBootLocked_sandbox _ _)
    · exact hs

theorem deleteMicroVM (uid : String) : Sandboxed P (h.deleteMicroVM uid).1 := by
  unfold Host.deleteMicroVM
  split
  · exact hs
  split
  · exact hs
  split
  · exact hs
  rename_i i vm hlookup
  obtain ⟨hvm, -, hP⟩ := hs.lookup hlookup
  have hset : Sandboxed P { h with recs := h.recs.set i { vm with state := .deleting } } :=
    hs.set hvm rfl rfl
  refine ⟨hset.recs, ?_, forall_mem_concat hs.removing ⟨uid, hP⟩, hs.starting, hs.log⟩
  intro uid' j hj
  by_cases huid : uid' = uid
  · rw [huid, AList.lookup_erase] at hj
    cases hj
  · rw [AList.lookup_erase_ne huid] at hj
    exact hset.known uid' j hj

theorem removeAll (k : Nat) (err : Option String) : Sandboxed P (h.removeAll k err).1 := by
  unfold Host.removeAll
  split
  · exact hs
  · rename_i dir hdir
    have hacted : Sandboxed P
        { h with removing := h.removing.eraseIdx k, log := h.log ++ [.removeAll dir] } :=
      { hs.act (a := .removeAll dir) (hs.removing dir (mem_of_getElem? hdir)) with
        removing := fun d hd => hs.removing d (mem_of_mem_eraseIdx hd) }
    cases err with
    | some e => exact hacted
    | none => exact hacted.dirs _

theorem attachExec {uid sandbox : String}
    (hattach : h.attachExec uid = .ok sandbox) : P uid sandbox := by
  unfold Host.attachExec at hattach
  split at hattach
  · cases hattach
  split at hattach
  · cases hattach
  rename_i i vm hlookup
  split at hattach
  · cases hattach
  · cases hattach
    exact (hs.lookup hlookup).2.2

theorem execCommand (start : Option ExecStart) : Sandboxed P (h.execCommand start).1 := by
  cases start with
  | none => exact hs
  | some start =>
    unfold Host.execCommand
    dsimp only
    split
    · exact hs
    split
    · exact hs
    · rename_i sandbox hattach
      exact { hs with starting := forall_mem_concat hs.starting (hs.attachExec hattach) }

theorem startCommand (k : Nat) (stat : Option String) : Sandboxed P (h.startCommand k stat).1 := by
  unfold Host.startCommand
  split
  · exact hs
  · rename_i x hx
    have herased : Sandboxed P { h with starting := h.starting.eraseIdx k } :=
      { hs with starting := fun y hy => hs.starting y (mem_of_mem_eraseIdx hy) }
    dsimp only
    split
    · exact herased
    · rename_i dir hdir
      cases stat with
      | some e => exact herased
      | none => exact herased.act ⟨hs.starting x (mem_of_getElem? hx), x.cwd, hdir⟩

/-- Every step keeps what is true of the sandboxes, if it is true of the one that a
successful `createMicroVM` makes. -/
theorem next {l : Label}
    (hnew : ∀ spec env uid, l = .create (some spec) env → chooseUID spec.uid env = .ok uid →
      Path.join cfg.sandboxRoot uid ∉ ancestors cfg.sandboxRoot →
      P uid (Path.join cfg.sandboxRoot uid)) : Sandboxed P (h.next cfg l) := by
  cases l with
  | create spec env =>
    refine hs.createMicroVM spec env ?_
    rintro spec₀ uid rfl
    exact hnew spec₀ env uid rfl
  | boot i createFails => exact hs.bootMicroVM i createFails
  | delete uid => exact hs.deleteMicroVM uid
  | removeAll k err => exact hs.removeAll k err
  | exec start => exact hs.execCommand start
  | start k stat => exact hs.startCommand k stat
  | close => exact { hs with }
  | others dirs => exact hs.dirs dirs

end Sandboxed

/-! ## Staying below the root -/

theorem CleanRoot.rooted {root : String} (h : CleanRoot root) :
    ∃ l, l ≠ [] ∧ (∀ e ∈ l, Path.Name e) ∧ root = Path.rooted l := by
  have hroot : root = Path.rooted (Path.names root) :=
    h.clean.symm.trans (Path.clean_of_isAbs h.isAbs)
  refine ⟨Path.names root, ?_, Path.names_of_split root, hroot⟩
  intro hnil
  rw [hnil] at hroot
  exact h.ne_slash hroot

theorem hexDigit_ne (n : Nat) : hexDigit n ≠ '/' ∧ hexDigit n ≠ '.' := by
  have hall : ∀ k : Fin 16, hexDigit k ≠ '/' ∧ hexDigit k ≠ '.' := by decide
  have hmod : hexDigit n = hexDigit (n % 16) := by simp [hexDigit]
  rw [hmod]
  exact hall ⟨n % 16, Nat.mod_lt _ (by decide)⟩

theorem up_newUID (bytes : List UInt8) : Path.up (newUID bytes) = 0 := by
  have hchars : ∀ c ∈ bytes.flatMap fun b => [hexDigit (b.toNat / 16), hexDigit (b.toNat % 16)],
      c ≠ '/' ∧ c ≠ '.' := by
    intro c hc
    obtain ⟨b, -, hb⟩ := mem_flatMap.mp hc
    simp only [mem_cons, not_mem_nil, or_false] at hb
    rcases hb with rfl | rfl
    · exact hexDigit_ne _
    · exact hexDigit_ne _
  refine Path.up_ofList (fun hmem => (hchars _ hmem).1 rfl) ?_
  intro heq
  have hdot : '.' ∈ Path.dotDot := mem_cons_self
  rw [← heq] at hdot
  exact (hchars _ hdot).2 rfl

theorem chooseUID_escapes {root uid uid' : String} {env : CreateEnv}
    (h : Path.escapes root uid = false) (hchoose : chooseUID uid env = .ok uid') :
    Path.escapes root uid' = false := by
  unfold chooseUID at hchoose
  split at hchoose
  · split at hchoose
    · cases hchoose
    · cases hchoose
      exact Path.escapes_of_up root (up_newUID _)
  · cases hchoose
    exact h

/-- A uid comes to a directory below the root exactly if it does not climb out, or to
one that is there already. -/
theorem below_join_iff {root uid : String} (hroot : CleanRoot root)
    (hfresh : Path.join root uid ∉ ancestors root) :
    Below root (Path.join root uid) ↔ Path.escapes root uid = false := by
  obtain ⟨l, hne, hl, rfl⟩ := hroot.rooted
  have hnames := Path.names_joined hl uid
  have hjoin := Path.join_rooted hne hl uid
  rw [Below, hjoin, Path.clean_rooted hnames, Path.startsWith_rooted hne hl hnames]
  refine Path.below_joined_iff hl fun habove => hfresh ?_
  rw [hjoin, ancestors, Path.names_rooted hl]
  exact mem_map_of_mem ((mem_inits _ _).mpr habove)

theorem sandboxDir_ok {sandbox cwd dir : String} (h : sandboxDir sandbox cwd = .ok dir) :
    dir = sandbox ∨
      (∃ path, dir = Path.join sandbox path) ∧ startsWith dir (sandbox ++ "/") = true := by
  unfold sandboxDir at h
  by_cases hcwd : cwd = ""
  · rw [if_pos hcwd] at h
    cases h
    exact .inl rfl
  · rw [if_neg hcwd] at h
    generalize (if Path.isAbs cwd then Path.clean cwd else cwd) = path at h
    dsimp only at h
    split at h
    · cases h
    · rename_i hinside
      cases h
      by_cases heq : Path.join sandbox path = sandbox
      · exact .inl heq
      · exact .inr ⟨⟨path, rfl⟩, not_not.mp fun hout => hinside ⟨heq, hout⟩⟩

/-- The sandbox of a MicroVM under a clean root is clean, and so is a directory that is
joined to it. -/
theorem clean_join {root : String} (hroot : CleanRoot root) (path : String) :
    Path.isAbs (Path.join root path) = true ∧
      Path.clean (Path.join root path) = Path.join root path := by
  obtain ⟨l, hne, hl, rfl⟩ := hroot.rooted
  rw [Path.join_rooted hne hl]
  exact ⟨Path.isAbs_rooted _, Path.clean_rooted (Path.names_joined hl path)⟩

/-- A sandbox below the root is itself a clean root, so what `sandboxDir` lets in is
below the root as well. -/
theorem below_of_sandboxDir {root uid cwd dir : String} (hroot : CleanRoot root)
    (hbelow : Below root (Path.join root uid))
    (h : sandboxDir (Path.join root uid) cwd = .ok dir) : Below root dir := by
  obtain ⟨habs, hclean⟩ := clean_join hroot uid
  have hsandbox : CleanRoot (Path.join root uid) := by
    refine ⟨habs, hclean, ?_⟩
    intro hslash
    obtain ⟨l, hne, hl, rfl⟩ := hroot.rooted
    have hnone : startsWith (Path.rooted []) (Path.rooted l ++ "/") = true := by
      rw [hslash] at hbelow
      exact hbelow
    obtain ⟨own, -, hnil⟩ := (Path.startsWith_rooted hne hl (by simp)).mp hnone
    exact hne (append_eq_nil_iff.mp hnil.symm).1
  rcases sandboxDir_ok h with rfl | ⟨⟨path, rfl⟩, hstart⟩
  · exact hbelow
  · unfold Below at hbelow ⊢
    rw [hclean] at hbelow
    rw [(clean_join hsandbox path).2]
    unfold startsWith at hbelow hstart ⊢
    rw [ isPrefixOf_iff_prefix] at hbelow hstart ⊢
    rw [String.toList_append] at hstart
    exact hbelow.trans ((prefix_append _ _).trans hstart)

/-! ## Every run -/

/-- Where the uids that callers choose do not climb out, every directory that the Host
makes, starts a command in or removes is strictly below the root, and a uid that does
climb out has a directory that is not. Whatever the uids, a command starts in the
MicroVM's own sandbox or below it, or not at all. -/
theorem stays_in_sandbox (cfg : HostConfig) (hroot : CleanRoot cfg.sandboxRoot) :
    (∀ h, (machine cfg).Reach (fun _ l => l.keeps cfg.sandboxRoot = true) h →
      ∀ a ∈ h.log, ∀ dir ∈ a.dir?, Below cfg.sandboxRoot dir) ∧
    (∀ uid, Path.join cfg.sandboxRoot uid ∉ ancestors cfg.sandboxRoot →
      (Below cfg.sandboxRoot (Path.join cfg.sandboxRoot uid) ↔
        Path.escapes cfg.sandboxRoot uid = false)) ∧
    (∀ h, (machine cfg).Reach Machine.any h →
      ∀ uid sandbox dir, .start uid sandbox dir ∈ h.log →
        sandbox = Path.join cfg.sandboxRoot uid ∧
        (dir = sandbox ∨ startsWith dir (sandbox ++ "/") = true)) := by
  refine ⟨?_, fun _ => below_join_iff hroot, ?_⟩
  · intro h hreach
    have hs : Sandboxed (fun uid dir => dir = Path.join cfg.sandboxRoot uid ∧
        Below cfg.sandboxRoot dir) h := by
      refine hreach.inv ?_ ?_
      · rintro h ⟨dirs, rfl⟩
        exact sandboxed_new _ dirs
      · intro h l h' hs hkeeps hnext
        cases hnext
        refine hs.next ?_
        rintro spec env uid rfl hchoose hfresh
        have huid : Path.escapes cfg.sandboxRoot spec.uid = false := by
          simpa [Label.keeps] using hkeeps
        exact ⟨rfl, (below_join_iff hroot hfresh).mpr (chooseUID_escapes huid hchoose)⟩
    intro a ha dir hdir
    have hof := hs.log a ha
    cases a with
    | mkdirAll root => cases hdir
    | mkdir d | removeAll d =>
      cases hdir
      obtain ⟨uid, -, hbelow⟩ := hof
      exact hbelow
    | start uid sandbox d =>
      cases hdir
      obtain ⟨⟨rfl, hbelow⟩, cwd, hcwd⟩ := hof
      exact below_of_sandboxDir hroot hbelow hcwd
  · intro h hreach uid sandbox dir hstart
    have hs : Sandboxed (fun uid dir => dir = Path.join cfg.sandboxRoot uid) h := by
      refine hreach.inv ?_ ?_
      · rintro h ⟨dirs, rfl⟩
        exact sandboxed_new _ dirs
      · intro h l h' hs _ hnext
        cases hnext
        exact hs.next fun _ _ _ _ _ _ => rfl
    obtain ⟨hsandbox, cwd, hcwd⟩ := hs.log _ hstart
    exact ⟨hsandbox, (sandboxDir_ok hcwd).imp_right And.right⟩

/-- A Host under `/srv/fake` whose MicroVMs are ready at once. -/
def srvFake : HostConfig := ⟨"/srv/fake", false⟩

/-- A system that answers everything. -/
def calm : CreateEnv := ⟨.ok [], none, none, false⟩

theorem srvFake_clean : CleanRoot srvFake.sandboxRoot := ⟨by decide, by decide, by decide⟩

/-- A MicroVM is created, runs a command and is deleted. -/
def oneVM (uid : String) : List Label :=
  [.create (some ⟨uid, "", ""⟩) calm, .exec (some ⟨uid, "true", false, "/.."⟩), .start 0 none,
    .delete uid, .removeAll 0 none]

theorem stays_in_sandbox_oneVM : ∃ h,
    (machine srvFake).Reach (fun _ l => l.keeps "/srv/fake" = true) h ∧
    .start "../fake/vm" "/srv/fake/vm" "/srv/fake/vm" ∈ h.log ∧
    .removeAll "/srv/fake/vm" ∈ h.log ∧ Below "/srv/fake" "/srv/fake/vm" := by
  obtain ⟨h, hexec, hstart, hremoved⟩ : ∃ h, (machine srvFake).execWhile
      (fun _ l => decide (l.keeps "/srv/fake" = true)) (Host.new ["/", "/srv"])
        (oneVM "../fake/vm") = some h ∧
      .start "../fake/vm" "/srv/fake/vm" "/srv/fake/vm" ∈ h.log ∧
      .removeAll "/srv/fake/vm" ∈ h.log :=
    ⟨_, rfl, by decide, by decide⟩
  have hreach : (machine srvFake).Reach (fun _ l => l.keeps "/srv/fake" = true) h :=
    ⟨_, ⟨_, rfl⟩, Machine.path_execWhile _ hexec⟩
  exact ⟨h, hreach, hstart, hremoved,
    (stays_in_sandbox srvFake srvFake_clean).1 h hreach _ hremoved _ rfl⟩

/-- A uid that climbs out: the directory beside the root is made, run in and removed. -/
theorem sibling_of_root_removed : ∃ h, (machine srvFake).Reach Machine.any h ∧
    h.log = [.mkdirAll "/srv/fake", .mkdir "/srv/x", .start "../x" "/srv/x" "/srv/x",
      .removeAll "/srv/x"] ∧ ¬ Below "/srv/fake" "/srv/x" := by
  have hs := Machine.reach_exec (M := machine srvFake) ⟨["/", "/srv"], rfl⟩
    (show ((machine srvFake).exec _ (oneVM "../x")).isSome from rfl)
  exact ⟨_, hs, by decide, by unfold Below; decide⟩

end FlintlockRunner.Flintlock.FakeHost
