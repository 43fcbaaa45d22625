import Mathlib.Data.Finset.Basic
import Keel.Common.Proc
import Keel.Common.Net
import Keel.Spec.Validate
import Keel.Agent.Model.Replication
/-!
# The machine an agent runs on

Everything a reconciler calls on: the jail runtime, ZFS, the network, the
mounts, the files of its state directory, and what serving ingresses
takes. Each manager is the in-memory one of its crate, except that any
call may also fail, with a message and without effect (`Outcome`); a
write that fails may leave a torn file behind.

A jail also carries the command last started in it, which the in-memory
runtime does not keep.
-/

namespace Keel

namespace Node

open Agent (volumeDatasetPath ZfsError FakeZfsManager)

/-! ## Names and paths -/

def jailName (specName : String) : String := "keel-" ++ specName

def baseDatasetPath (pool image : String) : String := pool ++ "/keel/" ++ image

def jailDatasetPath (pool specName : String) : String := pool ++ "/keel/jails/" ++ specName

def epairBaseName (ordinal : ℕ) : String := "epair" ++ toString ordinal

/-- An absolute path, by its components: what two paths are compared by.
A `..` stays where it is. -/
abbrev Path := List (List Char)

def components (s : List Char) : Path := (s.splitOn '/').filter fun c => c ≠ [] && c ≠ ['.']

/-- The component that leads one level up. -/
def parentDir : List Char := ['.', '.']

/-- Where a dataset is mounted. -/
def mountpoint (dataset : String) : Path := components ('/' :: dataset.toList)

def jailRootfsPath (pool specName : String) : Path := mountpoint (jailDatasetPath pool specName)

def volumeMountpoint (pool name : String) : Path := mountpoint (volumeDatasetPath pool name)

/-- `rootfs.join(mount_path.trim_start_matches('/'))`. -/
def mountTarget (rootfs : Path) (mountPath : String) : Path :=
  rootfs ++ components (mountPath.toList.dropWhile (· = '/'))

/-! ## The managers -/

inductive JailError
  /-- The command could not be run, or failed. -/
  | commandFailed (message : String)
  | notFound (name : String)
deriving DecidableEq

inductive MountError
  | commandFailed (message : String)
  | notMounted (target : Path)
deriving DecidableEq

inductive NetError
  | commandFailed (message : String)
  | notFound (bridge : String)
deriving DecidableEq

inductive IoError
  | notFound
  | other (message : String)
deriving DecidableEq

structure FakeJail where
  rootfs : Path
  vnet : Bool
  running : Bool
  pcpuPercent : Option ℕ
  memoryBytes : Option ℕ
  /-- The command last started in it. -/
  command : Option (List String)
deriving DecidableEq

structure FakeNetManager where
  bridges : Finset String
  bridgeAddresses : Table String
  /-- By epair: the jail, the bridge and the address. -/
  attachments : Table (String × String × String)
  /-- By subnet: the gateway. -/
  routes : Table String
  /-- By bridge. -/
  aliases : Table (Finset String)

/-- The network's first host address, under the same prefix length: what
a jail's bridge gets. -/
def bridgeGateway [Ipnet] (address : String) : Checked String :=
  match parseIpv4Net address with
  | .error _ => .error (.expectation
      "network.address is validated by keel_spec::validate_address before reaching NetManager")
  | .ok net => do
    let gateway ← Checked.add 32 net.network.toNat 1
    return Ipv4Addr.display (BitVec.ofNat 32 gateway) ++ "/" ++ toString net.prefixLen

structure Cert where
  certPem : String
  keyPem : String
deriving DecidableEq

/-- The directories the agent keeps YAML files in. -/
inductive Dir
  | state
  | ingress
deriving DecidableEq

/-- The machine; `Text` is what a YAML file holds. -/
structure Host (Text : Type) where
  jails : Table FakeJail
  zfs : FakeZfsManager
  net : FakeNetManager
  mounts : Finset Path
  stateDir : Table Text
  ingressDir : Table Text
  /-- The files the agent writes below the rootfs of a jail. -/
  rootfsFiles : List (Path × String)
  /-- Those of them that a dataset mounted since hides. -/
  hiddenFiles : List (Path × String)
  /-- The nginx config of a jail. -/
  nginxConfig : Table String

/-! ## Calls -/

/-- What a reconciler calls, each call indexed by what it answers. -/
inductive Op (Text : Type) : Type → Type
  | create (name : String) (rootfs : Path) (vnet : Bool) : Op Text (Except JailError Unit)
  | jailExists (name : String) : Op Text (Except JailError Bool)
  | startCommand (name : String) (command : List String) : Op Text (Except JailError Unit)
  | destroy (name : String) : Op Text (Except JailError Unit)
  | isRunning (name : String) : Op Text (Except JailError Bool)
  | setResourceLimits (name : String) (pcpuPercent memoryBytes : ℕ) :
      Op Text (Except JailError Unit)
  | removeResourceLimits (name : String) : Op Text (Except JailError Unit)
  | datasetExists (dataset : String) : Op Text (Except ZfsError Bool)
  | cloneFromBase (baseDataset targetDataset : String) : Op Text (Except ZfsError Unit)
  | createVolume (dataset quota : String) : Op Text (Except ZfsError Unit)
  | destroyDataset (dataset : String) : Op Text (Except ZfsError Unit)
  | ensureBridgeExists (bridge : String) : Op Text (Except NetError Unit)
  /-- The one call that may panic inside the manager. -/
  | attachJail (jailName bridge epairBase address : String) :
      Op Text (Checked (Except NetError Unit))
  | detachJail (epairBase : String) : Op Text (Except NetError Unit)
  | addRoute (subnet gatewayAddr : String) : Op Text (Except NetError Unit)
  | removeRoute (subnet : String) : Op Text (Except NetError Unit)
  | addAlias (bridge address : String) : Op Text (Except NetError Unit)
  | removeAlias (bridge address : String) : Op Text (Except NetError Unit)
  | ensureMountPoint (target : Path) : Op Text (Except MountError Unit)
  | mountNullfs (source target : Path) : Op Text (Except MountError Unit)
  | unmount (target : Path) : Op Text (Except MountError Unit)
  | isMounted (target : Path) : Op Text (Except MountError Bool)
  | createDirAll (dir : Dir) : Op Text (Except IoError Unit)
  | readDir (dir : Dir) : Op Text (Except IoError (List String))
  | readToString (dir : Dir) (file : String) : Op Text (Except IoError Text)
  | writeFile (dir : Dir) (file : String) (content : Text) : Op Text (Except IoError Unit)
  | renameFile (dir : Dir) (old new : String) : Op Text (Except IoError Unit)
  | removeFile (dir : Dir) (file : String) : Op Text (Except IoError Unit)
  | isFile (path : Path) : Op Text Bool
  | createRootfsDir (path : Path) : Op Text (Except IoError Unit)
  | writeRootfsFile (path : Path) (content : String) : Op Text (Except IoError Unit)
  | requestCertificate (host email : String) : Op Text (Except String Cert)
  | writeConfig (jailName config : String) : Op Text (Except String Unit)
  | testConfig (jailName : String) : Op Text (Except String Unit)
  | reload (jailName : String) : Op Text (Except String Unit)
  | instantNow : Op Text ℕ
  | serviceVip (service : String) : Op Text (Option (String × ℕ))

/-- What the outside makes of one call. -/
structure Outcome (Text : Type) where
  /-- The call fails, with a message. -/
  fails : Option String
  /-- What a failing write leaves of the file it was at, if anything. -/
  left : Option Text
  /-- The same, of a file below a rootfs. -/
  torn : Option String
  /-- The order a directory is listed in. -/
  order : IterOrder
  instant : ℕ
  cert : Cert
  vip : Option (String × ℕ)

/-- A call that works, on a machine that knows no service. -/
def Outcome.works {Text : Type} : Outcome Text := ⟨none, none, none, .listed, 0, ⟨"", ""⟩, none⟩

namespace Host

variable {Text : Type} (h : Host Text)

def dir : Dir → Table Text
  | .state => h.stateDir
  | .ingress => h.ingressDir

def setDir (d : Dir) (files : Table Text) : Host Text :=
  match d with
  | .state => { h with stateDir := files }
  | .ingress => { h with ingressDir := files }

/-- A change to a jail that must be there. -/
def withJail (name : String) (f : FakeJail → FakeJail) : Except JailError Unit × Host Text :=
  match h.jails.lookup name with
  | none => (.error (.notFound name), h)
  | some jail => (.ok (), { h with jails := h.jails.insert name (f jail) })

def create (name : String) (rootfs : Path) (vnet : Bool) : Host Text :=
  { h with jails := h.jails.insert name ⟨rootfs, vnet, false, none, none, none⟩ }

def destroy (name : String) : Except JailError Unit × Host Text :=
  match h.jails.lookup name with
  | none => (.error (.notFound name), h)
  | some _ => (.ok (), { h with jails := h.jails.erase name })

def isRunning (name : String) : Bool := (h.jails.lookup name).any FakeJail.running

/-- The command of a jail exits by itself. -/
def markExited (name : String) : Host Text :=
  (h.withJail name fun jail => { jail with running := false }).2

/-- A clone that is new is mounted, over what was written below its
mountpoint. -/
def cloneFromBase (baseDataset targetDataset : String) : Except ZfsError Unit × Host Text :=
  let (result, zfs) := h.zfs.cloneFromBase baseDataset targetDataset
  let hides := fun f : Path × String =>
    zfs.datasetExists targetDataset && !h.zfs.datasetExists targetDataset &&
      (mountpoint targetDataset).isPrefixOf f.1
  (result, { h with
    zfs
    rootfsFiles := h.rootfsFiles.filter fun f => !hides f
    hiddenFiles := h.rootfsFiles.filter hides ++ h.hiddenFiles })

/-- What was written below its mountpoint goes with a dataset, and what it
hid is back. -/
def destroyDataset (dataset : String) : Except ZfsError Unit × Host Text :=
  match h.zfs.destroyDataset dataset with
  | (.ok (), zfs) =>
    let below := fun f : Path × String => (mountpoint dataset).isPrefixOf f.1
    (.ok (), { h with
      zfs
      rootfsFiles := h.hiddenFiles.filter below ++ h.rootfsFiles.filter fun f => !below f
      hiddenFiles := h.hiddenFiles.filter fun f => !below f })
  | (.error e, _) => (.error e, h)

def attachJail [Ipnet] (name bridge epairBase address : String) :
    Checked (Except NetError Unit) × Host Text :=
  if bridge ∈ h.net.bridges then
    match bridgeGateway address with
    | .error p => (.error p, h)
    | .ok gateway => (.ok (.ok ()), { h with net := { h.net with
        bridgeAddresses := h.net.bridgeAddresses.insert bridge gateway
        attachments := h.net.attachments.insert epairBase (name, bridge, address) } })
  else (.ok (.error (.notFound bridge)), h)

def unmount (target : Path) : Except MountError Unit × Host Text :=
  if target ∈ h.mounts then (.ok (), { h with mounts := h.mounts.erase target })
  else (.error (.notMounted target), h)

def readToString (d : Dir) (file : String) : Except IoError Text :=
  match (h.dir d).lookup file with
  | none => .error .notFound
  | some content => .ok content

def renameFile (d : Dir) (old new : String) : Except IoError Unit × Host Text :=
  match (h.dir d).lookup old with
  | none => (.error .notFound, h)
  | some content => (.ok (), h.setDir d (((h.dir d).erase old).insert new content))

def removeFile (d : Dir) (file : String) : Except IoError Unit × Host Text :=
  if file ∈ h.dir d then (.ok (), h.setDir d ((h.dir d).erase file)) else (.error .notFound, h)

def writeRootfsFile (path : Path) (content : String) : Host Text :=
  { h with rootfsFiles := (path, content) :: h.rootfsFiles.filter fun f => f.1 ≠ path }

end Host

/-- A call that works as it does, or fails without effect. -/
def Outcome.unlessFails {Text α ε : Type} (o : Outcome Text) (h : Host Text) (error : String → ε)
    (result : Except ε α × Host Text) : Except ε α × Host Text :=
  match o.fails with
  | some message => (.error (error message), h)
  | none => result

/-- **The machine.** What a call answers, and the machine it leaves. -/
def Host.call {Text : Type} [Ipnet] : {ρ : Type} → Outcome Text → Op Text ρ → Host Text →
    ρ × Host Text
  | _, o, .create name rootfs vnet, h =>
    o.unlessFails h .commandFailed (.ok (), h.create name rootfs vnet)
  | _, o, .jailExists name, h =>
    o.unlessFails h .commandFailed (.ok (h.jails.lookup name).isSome, h)
  | _, o, .startCommand name command, h =>
    o.unlessFails h .commandFailed (h.withJail name fun jail =>
      { jail with running := true, command := some command })
  | _, o, .destroy name, h => o.unlessFails h .commandFailed (h.destroy name)
  | _, o, .isRunning name, h => o.unlessFails h .commandFailed (.ok (h.isRunning name), h)
  | _, o, .setResourceLimits name pcpuPercent memoryBytes, h =>
    o.unlessFails h .commandFailed (h.withJail name fun jail =>
      { jail with pcpuPercent := some pcpuPercent, memoryBytes := some memoryBytes })
  | _, o, .removeResourceLimits name, h =>
    o.unlessFails h .commandFailed (h.withJail name fun jail =>
      { jail with pcpuPercent := none, memoryBytes := none })
  | _, o, .datasetExists dataset, h =>
    o.unlessFails h .commandFailed (.ok (h.zfs.datasetExists dataset), h)
  | _, o, .cloneFromBase baseDataset targetDataset, h =>
    o.unlessFails h .commandFailed (h.cloneFromBase baseDataset targetDataset)
  | _, o, .createVolume dataset _, h =>
    o.unlessFails h .commandFailed (.ok (), { h with zfs := h.zfs.createVolume dataset })
  | _, o, .destroyDataset dataset, h => o.unlessFails h .commandFailed (h.destroyDataset dataset)
  | _, o, .ensureBridgeExists bridge, h =>
    o.unlessFails h .commandFailed
      (.ok (), { h with net := { h.net with bridges := insert bridge h.net.bridges } })
  | _, o, .attachJail name bridge epairBase address, h =>
    match o.fails with
    | some message => (.ok (.error (.commandFailed message)), h)
    | none => h.attachJail name bridge epairBase address
  | _, o, .detachJail epairBase, h =>
    o.unlessFails h .commandFailed
      (.ok (), { h with net := { h.net with attachments := h.net.attachments.erase epairBase } })
  | _, o, .addRoute subnet gatewayAddr, h =>
    o.unlessFails h .commandFailed
      (.ok (), { h with net := { h.net with routes := h.net.routes.insert subnet gatewayAddr } })
  | _, o, .removeRoute subnet, h =>
    o.unlessFails h .commandFailed
      (.ok (), { h with net := { h.net with routes := h.net.routes.erase subnet } })
  | _, o, .addAlias bridge address, h =>
    o.unlessFails h .commandFailed (.ok (), { h with net := { h.net with
      aliases := h.net.aliases.insert bridge
        (insert address ((h.net.aliases.lookup bridge).getD ∅)) } })
  | _, o, .removeAlias bridge address, h =>
    o.unlessFails h .commandFailed (.ok (), { h with net := { h.net with
      aliases := match h.net.aliases.lookup bridge with
        | none => h.net.aliases
        | some set => h.net.aliases.insert bridge (set.erase address) } })
  | _, o, .ensureMountPoint _, h => o.unlessFails h .commandFailed (.ok (), h)
  | _, o, .mountNullfs _ target, h =>
    o.unlessFails h .commandFailed (.ok (), { h with mounts := insert target h.mounts })
  | _, o, .unmount target, h => o.unlessFails h .commandFailed (h.unmount target)
  | _, o, .isMounted target, h =>
    o.unlessFails h .commandFailed (.ok (decide (target ∈ h.mounts)), h)
  | _, o, .createDirAll _, h => o.unlessFails h .other (.ok (), h)
  | _, o, .readDir d, h => o.unlessFails h .other (.ok (o.order.apply (h.dir d).keys), h)
  | _, o, .readToString d file, h =>
    o.unlessFails h .other (h.readToString d file, h)
  | _, o, .writeFile d file content, h =>
    match o.fails, o.left with
    | none, _ => (.ok (), h.setDir d ((h.dir d).insert file content))
    | some message, none => (.error (.other message), h)
    -- a write that fails half way has truncated the file already
    | some message, some torn => (.error (.other message), h.setDir d ((h.dir d).insert file torn))
  | _, o, .renameFile d old new, h => o.unlessFails h .other (h.renameFile d old new)
  | _, o, .removeFile d file, h => o.unlessFails h .other (h.removeFile d file)
  | _, _, .isFile path, h => ((h.rootfsFiles.lookup path).isSome, h)
  | _, o, .createRootfsDir _, h => o.unlessFails h .other (.ok (), h)
  | _, o, .writeRootfsFile path content, h =>
    match o.fails, o.torn with
    | none, _ => (.ok (), h.writeRootfsFile path content)
    | some message, none => (.error (.other message), h)
    | some message, some torn => (.error (.other message), h.writeRootfsFile path torn)
  | _, o, .requestCertificate _ _, h => o.unlessFails h id (.ok o.cert, h)
  | _, o, .writeConfig name config, h =>
    o.unlessFails h id (.ok (), { h with nginxConfig := h.nginxConfig.insert name config })
  | _, o, .testConfig _, h => o.unlessFails h id (.ok (), h)
  | _, o, .reload _, h => o.unlessFails h id (.ok (), h)
  | _, o, .instantNow, h => (o.instant, h)
  | _, o, .serviceVip _, h => (o.vip, h)

end Node

end Keel
