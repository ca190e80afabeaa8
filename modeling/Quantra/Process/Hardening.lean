import Quantra.Lib.Text
import Quantra.Services.Types
import Mathlib.Data.List.Destutter
import Mathlib.Data.List.Sort

/-! Capability and seccomp tables: `process.rs` and the helpers of `supervisor.rs`. -/
namespace Quantra.Process
open Quantra.Services (Service SeccompMode)

/-- The system calls that the filter tables name, with the numbers of the x86_64 target. -/
inductive Syscall
  | read | write | open_ | close | stat | fstat | lstat | poll | lseek | mmap | mprotect | munmap
  | brk | rt_sigaction | rt_sigprocmask | rt_sigreturn | ioctl | access | pipe | select
  | sched_yield | mremap | msync | mincore | madvise | dup | dup2 | nanosleep | getitimer | alarm
  | setitimer | getpid | sendfile | socket | connect | accept | sendto | recvfrom | sendmsg
  | recvmsg | shutdown | bind | listen | getsockname | getpeername | socketpair | setsockopt
  | getsockopt | clone | fork | vfork | execve | exit | wait4 | kill | uname | fcntl | flock
  | fsync | fdatasync | truncate | ftruncate | getdents | getcwd | chdir | rename | mkdir | rmdir
  | creat | link | unlink | symlink | readlink | chmod | fchmod | chown | fchown | lchown | umask
  | gettimeofday | getrlimit | getrusage | sysinfo | times | ptrace | getuid | syslog | getgid
  | setuid | setgid | geteuid | getegid | setpgid | getppid | getpgrp | setsid | setreuid
  | setregid | getgroups | setgroups | setresuid | getresuid | setresgid | getresgid | getpgid
  | setfsuid | setfsgid | getsid | rt_sigpending | rt_sigtimedwait | rt_sigqueueinfo
  | rt_sigsuspend | sigaltstack | utime | mknod | personality | statfs | fstatfs | sysfs
  | getpriority | setpriority | pivot_root | prctl | arch_prctl | setrlimit | chroot | sync | acct
  | settimeofday | mount | umount2 | swapon | swapoff | reboot | iopl | ioperm | init_module
  | delete_module | gettid | futex | sched_setaffinity | sched_getaffinity | set_thread_area
  | io_setup | epoll_create | getdents64 | set_tid_address | restart_syscall | exit_group
  | kexec_load | add_key | request_key | keyctl | openat | mkdirat | mknodat | fchownat
  | futimesat | newfstatat | unlinkat | renameat | linkat | symlinkat | readlinkat | fchmodat
  | faccessat | pselect6 | ppoll | unshare | set_robust_list | get_robust_list | splice | tee
  | sync_file_range | vmsplice | move_pages | utimensat | epoll_pwait | signalfd | timerfd_create
  | eventfd | fallocate | timerfd_settime | timerfd_gettime | accept4 | signalfd4 | eventfd2
  | epoll_create1 | dup3 | pipe2 | inotify_init1 | preadv | pwritev | rt_tgsigqueueinfo
  | perf_event_open | recvmmsg | fanotify_init | prlimit64 | sendmmsg | setns | getcpu
  | process_vm_readv | process_vm_writev | finit_module | getrandom | memfd_create | bpf
  | execveat | userfaultfd | copy_file_range | statx | io_uring_setup | io_uring_enter
  | io_uring_register | close_range | openat2 | faccessat2
  deriving DecidableEq

def Syscall.number : Syscall → ℕ
  | .read => 0 | .write => 1 | .open_ => 2 | .close => 3 | .stat => 4 | .fstat => 5 | .lstat => 6
  | .poll => 7 | .lseek => 8 | .mmap => 9 | .mprotect => 10 | .munmap => 11 | .brk => 12
  | .rt_sigaction => 13 | .rt_sigprocmask => 14 | .rt_sigreturn => 15 | .ioctl => 16
  | .access => 21 | .pipe => 22 | .select => 23 | .sched_yield => 24 | .mremap => 25
  | .msync => 26 | .mincore => 27 | .madvise => 28 | .dup => 32 | .dup2 => 33 | .nanosleep => 35
  | .getitimer => 36 | .alarm => 37 | .setitimer => 38 | .getpid => 39 | .sendfile => 40
  | .socket => 41 | .connect => 42 | .accept => 43 | .sendto => 44 | .recvfrom => 45
  | .sendmsg => 46 | .recvmsg => 47 | .shutdown => 48 | .bind => 49 | .listen => 50
  | .getsockname => 51 | .getpeername => 52 | .socketpair => 53 | .setsockopt => 54
  | .getsockopt => 55 | .clone => 56 | .fork => 57 | .vfork => 58 | .execve => 59 | .exit => 60
  | .wait4 => 61 | .kill => 62 | .uname => 63 | .fcntl => 72 | .flock => 73 | .fsync => 74
  | .fdatasync => 75 | .truncate => 76 | .ftruncate => 77 | .getdents => 78 | .getcwd => 79
  | .chdir => 80 | .rename => 82 | .mkdir => 83 | .rmdir => 84 | .creat => 85 | .link => 86
  | .unlink => 87 | .symlink => 88 | .readlink => 89 | .chmod => 90 | .fchmod => 91 | .chown => 92
  | .fchown => 93 | .lchown => 94 | .umask => 95 | .gettimeofday => 96 | .getrlimit => 97
  | .getrusage => 98 | .sysinfo => 99 | .times => 100 | .ptrace => 101 | .getuid => 102
  | .syslog => 103 | .getgid => 104 | .setuid => 105 | .setgid => 106 | .geteuid => 107
  | .getegid => 108 | .setpgid => 109 | .getppid => 110 | .getpgrp => 111 | .setsid => 112
  | .setreuid => 113 | .setregid => 114 | .getgroups => 115 | .setgroups => 116
  | .setresuid => 117 | .getresuid => 118 | .setresgid => 119 | .getresgid => 120
  | .getpgid => 121 | .setfsuid => 122 | .setfsgid => 123 | .getsid => 124 | .rt_sigpending => 127
  | .rt_sigtimedwait => 128 | .rt_sigqueueinfo => 129 | .rt_sigsuspend => 130
  | .sigaltstack => 131 | .utime => 132 | .mknod => 133 | .personality => 135 | .statfs => 137
  | .fstatfs => 138 | .sysfs => 139 | .getpriority => 140 | .setpriority => 141
  | .pivot_root => 155 | .prctl => 157 | .arch_prctl => 158 | .setrlimit => 160 | .chroot => 161
  | .sync => 162 | .acct => 163 | .settimeofday => 164 | .mount => 165 | .umount2 => 166
  | .swapon => 167 | .swapoff => 168 | .reboot => 169 | .iopl => 172 | .ioperm => 173
  | .init_module => 175 | .delete_module => 176 | .gettid => 186 | .futex => 202
  | .sched_setaffinity => 203 | .sched_getaffinity => 204 | .set_thread_area => 205
  | .io_setup => 206 | .epoll_create => 213 | .getdents64 => 217 | .set_tid_address => 218
  | .restart_syscall => 219 | .exit_group => 231 | .kexec_load => 246 | .add_key => 248
  | .request_key => 249 | .keyctl => 250 | .openat => 257 | .mkdirat => 258 | .mknodat => 259
  | .fchownat => 260 | .futimesat => 261 | .newfstatat => 262 | .unlinkat => 263
  | .renameat => 264 | .linkat => 265 | .symlinkat => 266 | .readlinkat => 267 | .fchmodat => 268
  | .faccessat => 269 | .pselect6 => 270 | .ppoll => 271 | .unshare => 272
  | .set_robust_list => 273 | .get_robust_list => 274 | .splice => 275 | .tee => 276
  | .sync_file_range => 277 | .vmsplice => 278 | .move_pages => 279 | .utimensat => 280
  | .epoll_pwait => 281 | .signalfd => 282 | .timerfd_create => 283 | .eventfd => 284
  | .fallocate => 285 | .timerfd_settime => 286 | .timerfd_gettime => 287 | .accept4 => 288
  | .signalfd4 => 289 | .eventfd2 => 290 | .epoll_create1 => 291 | .dup3 => 292 | .pipe2 => 293
  | .inotify_init1 => 294 | .preadv => 295 | .pwritev => 296 | .rt_tgsigqueueinfo => 297
  | .perf_event_open => 298 | .recvmmsg => 299 | .fanotify_init => 300 | .prlimit64 => 302
  | .sendmmsg => 307 | .setns => 308 | .getcpu => 309 | .process_vm_readv => 310
  | .process_vm_writev => 311 | .finit_module => 313 | .getrandom => 318 | .memfd_create => 319
  | .bpf => 321 | .execveat => 322 | .userfaultfd => 323 | .copy_file_range => 326 | .statx => 332
  | .io_uring_setup => 425 | .io_uring_enter => 426 | .io_uring_register => 427
  | .close_range => 436 | .openat2 => 437 | .faccessat2 => 439

/-- Position in this table is the Linux capability number. -/
def capabilityNames : List String :=
  ["CAP_CHOWN", "CAP_DAC_OVERRIDE", "CAP_DAC_READ_SEARCH", "CAP_FOWNER", "CAP_FSETID", "CAP_KILL",
    "CAP_SETGID", "CAP_SETUID", "CAP_SETPCAP", "CAP_LINUX_IMMUTABLE", "CAP_NET_BIND_SERVICE",
    "CAP_NET_BROADCAST", "CAP_NET_ADMIN", "CAP_NET_RAW", "CAP_IPC_LOCK", "CAP_IPC_OWNER",
    "CAP_SYS_MODULE", "CAP_SYS_RAWIO", "CAP_SYS_CHROOT", "CAP_SYS_PTRACE", "CAP_SYS_PACCT",
    "CAP_SYS_ADMIN", "CAP_SYS_BOOT", "CAP_SYS_NICE", "CAP_SYS_RESOURCE", "CAP_SYS_TIME",
    "CAP_SYS_TTY_CONFIG", "CAP_MKNOD", "CAP_LEASE", "CAP_AUDIT_WRITE", "CAP_AUDIT_CONTROL",
    "CAP_SETFCAP", "CAP_MAC_OVERRIDE", "CAP_MAC_ADMIN", "CAP_SYSLOG", "CAP_WAKE_ALARM",
    "CAP_BLOCK_SUSPEND", "CAP_AUDIT_READ", "CAP_PERFMON", "CAP_BPF", "CAP_CHECKPOINT_RESTORE"]

/-- Accepts names with or without `CAP_`, in any ASCII case. -/
def capabilityNameToNumber (name : String) : Option ℕ :=
  let upper := Text.toAsciiUppercase (Text.trim name)
  let canonical := if (Text.dropLead "CAP_" upper).isSome then upper else "CAP_" ++ upper
  capabilityNames.findIdx? (· = canonical)

def resolveCapabilityNumbers : List String → Except String (List ℕ)
  | [] => .ok []
  | name :: names =>
    match capabilityNameToNumber name with
    | none => .error ("Unknown capability '" ++ name ++ "'")
    | some number => (resolveCapabilityNumbers names).map (number :: ·)

section Resolved

-- the table of names would be searched for a name that is not known
attribute [local irreducible] capabilityNameToNumber

theorem resolveCapabilityNumbers_cons (cap : String) (caps : List String) :
    resolveCapabilityNumbers (cap :: caps) = match capabilityNameToNumber cap with
      | none => .error ("Unknown capability '" ++ cap ++ "'")
      | some number => (resolveCapabilityNumbers caps).map (number :: ·) := rfl

/-- Every name of a list is resolved, or none. -/
theorem resolveCapabilityNumbers_eq_ok {names : List String} {caps : List ℕ}
    (h : resolveCapabilityNumbers names = .ok caps) :
    names.map capabilityNameToNumber = caps.map some := by
  induction names generalizing caps with
  | nil =>
    cases h
    rfl
  | cons name names ih =>
    rw [resolveCapabilityNumbers_cons] at h
    split at h
    · cases h
    · rename_i number hnumber
      cases hrest : resolveCapabilityNumbers names with
      | error e =>
        rw [hrest] at h
        cases h
      | ok rest =>
        rw [hrest] at h
        cases h
        rw [List.map_cons, List.map_cons, hnumber, ih hrest]

end Resolved

inductive SeccompProfile
  | default
  | networkDaemon
  | networkTight
  deriving DecidableEq, Repr

def SeccompProfile.name : SeccompProfile → String
  | .default => "default"
  | .networkDaemon => "network-daemon"
  | .networkTight => "network-tight"

def supportedSeccompProfiles : List SeccompProfile := [.default, .networkDaemon, .networkTight]

def defaultDenylist : List Syscall :=
  [.mount, .umount2, .pivot_root, .kexec_load, .reboot, .init_module, .finit_module,
   .delete_module, .swapon, .swapoff, .ptrace, .bpf, .perf_event_open, .syslog, .iopl, .ioperm]

def SeccompProfile.denied : SeccompProfile → List Syscall
  | .default => defaultDenylist
  | .networkDaemon => defaultDenylist ++
    [.unshare, .setns, .add_key, .request_key, .keyctl, .userfaultfd]
  | .networkTight => defaultDenylist ++
    [.socket, .socketpair, .connect, .bind, .listen, .accept, .accept4]

/-- The denied system call numbers of a profile, sorted and without repetition. -/
def resolveSeccompProfileDenylist (name : String) : Except String (List ℕ) :=
  let normalized := Text.toAsciiLowercase (Text.trim name)
  match supportedSeccompProfiles.find? (·.name = normalized) with
  | some profile =>
    .ok (((profile.denied.map Syscall.number).insertionSort (· ≤ ·)).destutter (· ≠ ·))
  | none => .error ("Unknown seccomp profile '" ++ name ++ "'; supported profiles: " ++
      ", ".intercalate (supportedSeccompProfiles.map SeccompProfile.name))

/-- `seccomp_profile` without surrounding white space, absent if nothing is left. -/
def trimmedProfile (svc : Service) : Option String :=
  (svc.seccompProfile.map Text.trim).filter (· ≠ "")

def resolveSeccompProfileForService (svc : Service) : Except String (List ℕ) :=
  match svc.seccomp with
  | .off | .strict => .ok []
  | .profile =>
    match trimmedProfile svc with
    | none => .error "seccomp is 'profile' but seccomp_profile is not set"
    | some profile => resolveSeccompProfileDenylist profile

def resolveAmbientCaps (names : List String) : List ℕ := names.filterMap capabilityNameToNumber

/-- A leading `~` is dropped, not interpreted. -/
def resolveBoundingSet (names : List String) : List ℕ :=
  names.filterMap fun n => capabilityNameToNumber (Text.trimStartMatches '~' n)

/-- The calls an allowlisted service keeps. -/
def baseAllowlist : List Syscall :=
  [.read, .write, .open_, .close, .stat, .fstat, .lstat, .poll, .lseek, .mmap, .mprotect, .munmap,
   .brk, .rt_sigaction, .rt_sigprocmask, .rt_sigreturn, .ioctl, .access, .pipe, .select,
   .sched_yield, .mremap, .msync, .mincore, .madvise, .dup, .dup2, .nanosleep, .getitimer, .alarm,
   .setitimer, .getpid, .sendfile, .socket, .connect, .accept, .sendto, .recvfrom, .sendmsg,
   .recvmsg, .shutdown, .bind, .listen, .getsockname, .getpeername, .socketpair, .setsockopt,
   .getsockopt, .clone, .fork, .vfork, .execve, .exit, .wait4, .kill, .uname, .fcntl, .flock,
   .fsync, .fdatasync, .truncate, .ftruncate, .getdents, .getcwd, .chdir, .rename, .mkdir, .rmdir,
   .creat, .link, .unlink, .symlink, .readlink, .chmod, .fchmod, .chown, .fchown, .lchown, .umask,
   .gettimeofday, .getrlimit, .getrusage, .sysinfo, .times, .getuid, .syslog, .getgid, .setuid,
   .setgid, .geteuid, .getegid, .setpgid, .getppid, .getpgrp, .setsid, .setreuid, .setregid,
   .getgroups, .setgroups, .setresuid, .getresuid, .setresgid, .getresgid, .getpgid, .setfsuid,
   .setfsgid, .getsid, .rt_sigpending, .rt_sigtimedwait, .rt_sigqueueinfo, .rt_sigsuspend,
   .sigaltstack, .utime, .mknod, .personality, .statfs, .fstatfs, .sysfs, .getpriority,
   .setpriority, .prctl, .arch_prctl, .setrlimit, .chroot, .sync, .acct, .settimeofday, .mount,
   .umount2, .swapon, .swapoff, .reboot, .gettid, .futex, .sched_setaffinity, .sched_getaffinity,
   .set_thread_area, .io_setup, .epoll_create, .getdents64, .set_tid_address, .restart_syscall,
   .openat, .mkdirat, .mknodat, .fchownat, .futimesat, .newfstatat, .unlinkat, .renameat, .linkat,
   .symlinkat, .readlinkat, .fchmodat, .faccessat, .pselect6, .ppoll, .unshare, .set_robust_list,
   .get_robust_list, .splice, .tee, .sync_file_range, .vmsplice, .move_pages, .utimensat,
   .epoll_pwait, .signalfd, .timerfd_create, .eventfd, .fallocate, .timerfd_settime,
   .timerfd_gettime, .accept4, .signalfd4, .eventfd2, .epoll_create1, .dup3, .pipe2,
   .inotify_init1, .preadv, .pwritev, .rt_tgsigqueueinfo, .recvmmsg, .fanotify_init, .prlimit64,
   .sendmmsg, .getcpu, .process_vm_readv, .process_vm_writev, .getrandom, .memfd_create,
   .execveat, .copy_file_range, .statx, .io_uring_setup, .io_uring_enter, .io_uring_register,
   .close_range, .openat2, .faccessat2, .exit_group]

def resolveSeccompAllowlist (svc : Service) : List ℕ :=
  if svc.syscallFilterMode ≠ "allowlist" ∨ svc.seccomp = .off then []
  else baseAllowlist.map Syscall.number

example : capabilityNameToNumber "sys_admin" = some 21 := by decide

example : (resolveSeccompProfileDenylist " Network-Tight ").toOption.map List.length = some 23 := by
  decide

end Quantra.Process
