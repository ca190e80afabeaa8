import Quantra.Lib.Calls
import Quantra.Lib.Text
import Quantra.Services.Types

/-! `sandbox.rs`: the calls that the forked child makes to confine itself. Every call may succeed or
fail; the texts of log lines are left out. -/
namespace Quantra.Sandbox
open Calls Calls.Prog Quantra.Services

inductive CloneFlag
  | newNet
  | newIpc
  | newUts
  | newNs
  deriving DecidableEq, Repr

inductive MsFlag
  | rdonly
  | nosuid
  | nodev
  | noexec
  | remount
  | bind
  | strictatime
  deriving DecidableEq, Repr

structure Mount where
  source : Option String
  target : String
  fstype : Option String := none
  flags : List MsFlag
  data : Option String := none
  deriving DecidableEq, Repr

inductive OpenMode
  | rdwr
  | rdonly
  | path
  deriving DecidableEq, Repr

inductive Resource
  | nofile
  | nproc
  | fsize
  | stack
  | memlock
  | core
  deriving DecidableEq, Repr

/-- What the child leaves to the standard and the C library, which make system calls of their own
choice: file tests, directories, `open` and `setrlimit`, a child process, a line of the logger and
the heap. `none` is `RLIM_INFINITY`. -/
inductive LibOp
  | exists_ (path : String)
  | createDirAll (path : String)
  | open_ (path : String) (mode : OpenMode)
  | setrlimit (resource : Resource) (soft hard : Option ℕ)
  | command (argv : List String)
  | log
  | heap
  deriving DecidableEq, Repr

/-- The calls of the child between its seccomp filter and its command. -/
inductive ChildCall
  | lib (op : LibOp)
  | write (text : String)
  | unshare (flag : CloneFlag)
  | mount (m : Mount)
  | prctl (option arg : ℕ)
  | personality (persona : ℕ)
  | chroot (path : String)
  | chdir (path : String)
  | ioctl (fd request arg : ℕ)
  | close (fd : ℕ)
  | landlockCreateRuleset
  | landlockAddRule (ruleset fd : ℕ)
  | landlockRestrictSelf (ruleset : ℕ)
  | execve (cmd : String) (args : List String)
  deriving DecidableEq, Repr

/-- The value that a call returns, or the text of its error. -/
abbrev Outcome := Except String ℕ

abbrev Child (α : Type) := Prog ChildCall Outcome α

abbrev Setup := Child (Except String Unit)

/-! Single calls and what is done with their outcome. -/

def sys (c : ChildCall) : Child Outcome := .call c .ret

def Mount.isCString (m : Mount) : Bool :=
  m.source.all Text.isCString && Text.isCString m.target && m.fstype.all Text.isCString &&
    m.data.all Text.isCString

/-- The error of a wrapper that is given a text with a NUL, before any call. -/
def einval : Outcome := .error "EINVAL: Invalid argument"

def mount (m : Mount) : Child Outcome := if m.isCString then sys (.mount m) else .ret einval

def chroot (path : String) : Child Outcome :=
  if Text.isCString path then sys (.chroot path) else .ret einval

def createDirAll (path : String) : Child Outcome :=
  if Text.isCString path then sys (.lib (.createDirAll path)) else .ret einval

/-- `context(..)?`. -/
def orFail (p : Child Outcome) (context : String) : Setup :=
  p.check (fun _ => done) fun _ => .ret (.error context)

def ignore (p : Child Outcome) : Setup := p.bind fun _ => .done

def log : Setup := ignore (sys (.lib .log))

/-- A failure that is logged and not fatal. -/
def orLog (p : Child Outcome) : Setup := p.check (fun _ => done) fun _ => log

/-- Success and failure are both logged. -/
def thenLog (p : Child Outcome) : Setup := p.bind fun _ => log

/-- `Path::exists`. -/
def ifExists (path : String) (yes no : Setup) : Setup :=
  if Text.isCString path then (sys (.lib (.exists_ path))).check (fun _ => yes) fun _ => no
  else no

def seq (steps : List Setup) : Setup := each steps id

/-! Namespaces. -/

def setupPrivateNetwork : Setup := seq [
  orFail (sys (.unshare .newNet)) "unshare(CLONE_NEWNET) for private_network",
  ignore (sys (.lib (.command ["ip", "link", "set", "lo", "up"]))),
  log]

def setupPrivateIpc : Setup := seq [
  orFail (sys (.unshare .newIpc)) "unshare(CLONE_NEWIPC) for private_ipc",
  log]

def setupProtectHostname : Setup := seq [
  orFail (sys (.unshare .newUts)) "unshare(CLONE_NEWUTS) for protect_hostname",
  log]

/-- The private mount namespace that most of the functions below enter first. -/
def unshareNs (reason : String) : Setup :=
  orFail (sys (.unshare .newNs)) ("unshare(CLONE_NEWNS) for " ++ reason)

/-! Devices, home, `/proc` and the kernel's interfaces. -/

def bindNull (target : String) : Mount := ⟨some "/dev/null", target, none, [.bind], none⟩

def bindMount (source target : String) : Mount := ⟨some source, target, none, [.bind], none⟩

def bindReadOnly (source target : String) : Mount :=
  ⟨some source, target, none, [.bind, .rdonly, .remount], none⟩

def rawDevices : List String :=
  ["/dev/sda", "/dev/sdb", "/dev/sdc", "/dev/sdd", "/dev/nvme0", "/dev/nvme1", "/dev/vda",
    "/dev/vdb", "/dev/mmcblk0", "/dev/mem", "/dev/kmem", "/dev/port", "/dev/kvm", "/dev/dri"]

def setupPrivateDevices : Setup := seq [
  unshareNs "private_devices",
  each rawDevices fun dev => ifExists dev (orLog (mount (bindNull dev))) done,
  ifExists "/dev/kmsg" (ignore (mount (bindNull "/dev/kmsg"))) done,
  log]

def homePaths : List String := ["/home", "/root", "/run/user"]

def protectHomePath (mode : ProtectHome) (path : String) : Setup :=
  match mode with
  | .no => done
  | .readOnly => seq [
      orFail (mount (bindMount path path)) ("bind " ++ path ++ " for read-only"),
      orFail (mount (bindReadOnly path path)) ("remount " ++ path ++ " read-only")]
  | .tmpfs =>
    orFail (mount ⟨some "tmpfs", path, some "tmpfs", [.nosuid, .nodev], some "mode=0755"⟩)
      ("tmpfs over " ++ path)
  | .yes =>
    orFail (mount ⟨some "tmpfs", path, some "tmpfs", [.nosuid, .nodev, .rdonly], some "mode=0000"⟩)
      ("inaccessible tmpfs over " ++ path)

def setupProtectHome (mode : ProtectHome) : Setup :=
  if mode = .no then done
  else seq [
    unshareNs "protect_home",
    each homePaths fun path => ifExists path (protectHomePath mode path) done,
    log]

def setupProtectProc (mode : ProtectProc) : Setup :=
  match mode with
  | .default => done
  | .invisible => remount "hidepid=invisible"
  | .noaccess => remount "hidepid=noaccess"
  | .ptraceable => remount "hidepid=ptraceable"
where
  remount (hidepid : String) : Setup := seq [
    unshareNs "protect_proc",
    orFail (mount ⟨some "proc", "/proc", some "proc", [.nosuid, .nodev, .noexec], some hidepid⟩)
      ("remount /proc with " ++ hidepid),
    log]

def tunablePaths : List String :=
  ["/proc/sys", "/proc/sysrq-trigger", "/proc/latency_stats", "/proc/acpi", "/proc/timer_list",
    "/sys"]

/-- Bind a path to itself and make it read-only; neither failure is fatal. -/
def readOnlyPath (path : String) : Setup := seq [
  ignore (mount (bindMount path path)),
  orLog (mount (bindReadOnly path path))]

def setupProtectKernelTunables : Setup := seq [
  unshareNs "protect_kernel_tunables",
  each tunablePaths fun path => ifExists path (readOnlyPath path) done,
  log]

def setupProtectKernelLogs : Setup := seq [
  ifExists "/dev/kmsg" (seq [
    unshareNs "protect_kernel_logs",
    orFail (mount (bindNull "/dev/kmsg")) "bind /dev/null over /dev/kmsg"]) done,
  log]

def setupProtectControlGroups : Setup := seq [
  ifExists "/sys/fs/cgroup" (seq [
    unshareNs "protect_control_groups",
    ignore (mount (bindMount "/sys/fs/cgroup" "/sys/fs/cgroup")),
    orFail (mount (bindReadOnly "/sys/fs/cgroup" "/sys/fs/cgroup"))
      "remount /sys/fs/cgroup read-only"]) done,
  log]

/-! Path controls. -/

def setupInaccessiblePaths (paths : List String) : Setup :=
  if paths = [] then done
  else seq [
    unshareNs "inaccessible_paths",
    each paths fun path => ifExists path (thenLog (mount (bindNull path))) log]

def setupReadOnlyPaths (paths : List String) : Setup :=
  if paths = [] then done
  else seq [
    unshareNs "read_only_paths",
    each paths fun path => ifExists path (readOnlyPath path) done]

/-- One `host:dest` pair; a text without a colon is skipped. -/
def bindPath (readOnly : Bool) (spec : String) : Setup :=
  match Text.splitn 2 ':' spec with
  | [src, dst] =>
    ifExists src (seq [
      orFail (mount (bindMount src dst)) ("bind " ++ src ++ " → " ++ dst),
      when readOnly (orFail (mount (bindReadOnly src dst))
        ("remount RO " ++ src ++ " → " ++ dst))]) log
  | _ => log

def setupBindPaths (bindPaths : List String) (readOnly : Bool) : Setup :=
  if bindPaths = [] then done
  else seq [unshareNs "bind_paths", each bindPaths (bindPath readOnly)]

/-! Process attributes. -/

def prSetMdwe : ℕ := 65

def procMdweRefuseExecGain : ℕ := 1

def prSetSecurebits : ℕ := 28

def secureAllBits : ℕ := 0x3f

def prSetTimerslack : ℕ := 29

def setupMemoryDenyWriteExecute : Setup := thenLog (sys (.prctl prSetMdwe procMdweRefuseExecGain))

def setupRestrictSuidSgid : Setup := thenLog (sys (.prctl prSetSecurebits secureAllBits))

def setupRestrictRealtime : Setup := thenLog (sys (.prctl prSetTimerslack 50000))

def setupLockPersonality : Setup :=
  (sys (.personality 0xffffffff)).check (fun current => thenLog (sys (.personality current)))
    fun _ => done

def trimStartAf : List Char → List Char
  | 'A' :: 'F' :: '_' :: cs => trimStartAf cs
  | cs => cs

def afNameToNumber (name : String) : Option ℕ :=
  match Text.toAsciiUppercase (String.ofList (trimStartAf name.toList)) with
  | "UNIX" | "LOCAL" => some 1
  | "INET" => some 2
  | "INET6" => some 10
  | "NETLINK" => some 16
  | "PACKET" => some 17
  | "BLUETOOTH" => some 16
  | "VSOCK" => some 40
  | _ => none

/-- Nothing but log lines: unknown names, then the families. -/
def setupRestrictAddressFamilies (families : List String) : Setup :=
  if families = [] then done
  else seq [
    each families fun family => when (afNameToNumber family).isNone log,
    when (families.filterMap afNameToNumber ≠ []) log]

def setupSystemCallArchitecturesNative : Setup := log

/-! Root directory and root image. -/

def setupRootDirectory (path : String) : Setup := seq [
  orFail (chroot path) ("chroot to '" ++ path ++ "'"),
  orFail (sys (.chdir "/")) "chdir / after chroot",
  log]

def loopCtlGetFree : ℕ := 0x4C82

def loopSetFd : ℕ := 0x4C00

def rootImageTarget : String := "/run/quantra-service-root"

/-- `last_os_error` after a further call: the error of that call, if it failed. -/
def lastOsError (e : String) : Outcome → String
  | .ok _ => e
  | .error e' => e'

/-- Try the file systems in order. -/
def mountImage (imagePath loopDev : String) : List String → Setup
  | [] => .ret (.error ("root_image '" ++ imagePath ++ "' (" ++ loopDev ++
      ") could not be mounted as ext4/squashfs/btrfs/xfs/f2fs"))
  | fstype :: rest =>
    (sys (.mount ⟨some loopDev, rootImageTarget, some fstype, [.rdonly], none⟩)).check
      (fun _ => log.andThen (setupRootDirectory rootImageTarget))
      fun _ => mountImage imagePath loopDev rest

/-- Close a descriptor and go on with the outcome. -/
def closeThen (fd : ℕ) (next : Outcome → Setup) : Setup := (sys (.close fd)).bind next

/-- Attach the opened image to the opened loop device, and mount it. -/
def attachImage (imagePath loopDev : String) (loopFd imgFd : ℕ) : Setup :=
  (sys (.ioctl loopFd loopSetFd imgFd)).check
    (fun _ => closeThen imgFd fun _ => closeThen loopFd fun _ => seq [
      orFail (createDirAll rootImageTarget)
        ("create root image mount target '" ++ rootImageTarget ++ "'"),
      mountImage imagePath loopDev ["ext4", "squashfs", "btrfs", "xfs", "f2fs"]])
    fun e => closeThen imgFd fun closed => closeThen loopFd fun closed' =>
      .ret (.error ("LOOP_SET_FD: " ++ lastOsError (lastOsError e closed) closed'))

/-- Open the loop device and the image. -/
def openImage (imagePath loopDev : String) : Setup :=
  (sys (.lib (.open_ loopDev .rdwr))).check
    (fun loopFd =>
      if Text.isCString imagePath then
        (sys (.lib (.open_ imagePath .rdonly))).check (attachImage imagePath loopDev loopFd)
          fun e => closeThen loopFd fun closed =>
            .ret (.error ("open image '" ++ imagePath ++ "': " ++ lastOsError e closed))
      else .ret (.error ("invalid image path: " ++ imagePath)))
    fun e => .ret (.error ("open " ++ loopDev ++ ": " ++ e))

def setupRootImage (imagePath : String) : Setup :=
  (sys (.lib (.open_ "/dev/loop-control" .rdwr))).check
    (fun ctrlFd => (sys (.ioctl ctrlFd loopCtlGetFree 0)).check
      (fun loopIdx => closeThen ctrlFd fun _ =>
        openImage imagePath ("/dev/loop" ++ toString loopIdx))
      fun e => closeThen ctrlFd fun closed =>
        .ret (.error ("LOOP_CTL_GET_FREE: " ++ lastOsError e closed)))
    fun e => .ret (.error ("open /dev/loop-control: " ++ e))

/-! The extended part. -/

def parseTmpfsSpec (spec : String) : String × String × String :=
  let parts := Text.splitn 3 ':' spec
  (parts[0]?.getD "", parts[1]?.getD "64M", parts[2]?.getD "0755")

def temporaryFilesystem (spec : String) : Setup :=
  let (path, size, mode) := parseTmpfsSpec spec
  let opts := "size=" ++ size ++ ",mode=" ++ mode
  seq [
    ifExists path done (orFail (createDirAll path) ("mkdir '" ++ path ++ "' for tmpfs")),
    orFail (mount ⟨some "tmpfs", path, some "tmpfs", [.nosuid, .nodev], some opts⟩)
      ("tmpfs on '" ++ path ++ "' (" ++ opts ++ ")"),
    log]

def setupTemporaryFilesystems (specs : List String) : Setup :=
  if specs = [] then done
  else seq [unshareNs "temporary_filesystems", each specs temporaryFilesystem]

def apiMounts : List Mount := [
  ⟨some "proc", "/proc", some "proc", [.nosuid, .noexec, .nodev], none⟩,
  ⟨some "sysfs", "/sys", some "sysfs", [.nosuid, .noexec, .nodev], none⟩,
  ⟨some "devtmpfs", "/dev", some "devtmpfs", [.nosuid, .strictatime], some "mode=755"⟩,
  ⟨some "devpts", "/dev/pts", some "devpts", [.nosuid, .noexec], some "mode=620,ptmxmode=0666"⟩,
  ⟨some "tmpfs", "/dev/shm", some "tmpfs", [.nosuid, .nodev, .noexec], some "mode=1777"⟩,
  ⟨some "tmpfs", "/run", some "tmpfs", [.nosuid, .nodev], some "mode=755"⟩]

def setupMountApiVfs : Setup := seq [
  unshareNs "mount_api_vfs",
  each apiMounts fun m => seq [ignore (createDirAll m.target), orLog (mount m)],
  log]

def setupProcSubsetPid : Setup := seq [
  unshareNs "proc_subset",
  orLog (mount ⟨some "proc", "/proc", some "proc", [.nosuid, .nodev, .noexec], some "subset=pid"⟩)]

def applySandboxExtended (svc : Service) : Setup := seq [
  setupTemporaryFilesystems svc.temporaryFilesystems,
  when svc.mountApiVfs setupMountApiVfs,
  when svc.procSubsetPid setupProcSubsetPid,
  when svc.restrictRealtime setupRestrictRealtime,
  when svc.lockPersonality setupLockPersonality,
  setupRestrictAddressFamilies svc.restrictAddressFamilies,
  when svc.systemCallArchitecturesNative setupSystemCallArchitecturesNative]

/-- A root image overrides the root directory. -/
def setupRoot (svc : Service) : Setup :=
  match svc.rootImage, svc.rootDirectory with
  | some image, _ => setupRootImage image
  | none, some root => setupRootDirectory root
  | none, none => done

/-- What `apply_sandbox` does before the root changes. -/
def namespaceSteps (svc : Service) : List Setup := [
  when svc.privateNetwork setupPrivateNetwork,
  when svc.privateIpc setupPrivateIpc,
  when svc.protectHostname setupProtectHostname,
  when svc.privateDevices setupPrivateDevices,
  setupProtectHome svc.protectHome,
  setupProtectProc svc.protectProc,
  when svc.protectKernelTunables setupProtectKernelTunables,
  when svc.protectKernelLogs setupProtectKernelLogs,
  when svc.protectControlGroups setupProtectControlGroups,
  setupInaccessiblePaths svc.inaccessiblePaths,
  setupReadOnlyPaths svc.readOnlyPaths,
  setupBindPaths svc.bindPaths false,
  setupBindPaths svc.bindReadOnlyPaths true,
  when svc.memoryDenyWriteExecute setupMemoryDenyWriteExecute,
  when svc.restrictSuidSgid setupRestrictSuidSgid]

def applySandbox (svc : Service) : Setup :=
  (seq (namespaceSteps svc)).andThen ((setupRoot svc).andThen (applySandboxExtended svc))

end Quantra.Sandbox
