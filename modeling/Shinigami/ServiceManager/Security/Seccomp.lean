import Mathlib.Data.List.Nodup
import Shinigami.Foundations.Bpf
import Shinigami.Foundations.LittleEndian

/-!
# The system-call filter

The filter that `sm_setup_seccomp` installs, as a program of the kernel's packet-filter
machine. The numbers of the system calls and of the signals are those of the platform
(`Abi`). The rules are listed in the order of the source; the block for `SYS_kill` is left
with the signal in the accumulator, so it must not be left without an answer
(`eval_killRule`).
-/

namespace Shinigami

namespace ServiceManager

namespace Seccomp

open LittleEndian

inductive Syscall
  | exitGroup | exit
  | rtSigaction | rtSigprocmask | rtSigreturn | sigaltstack
  | socket | bind | listen | accept | accept4 | connect | sendto | recvfrom | sendmsg
  | recvmsg | getsockname | getsockopt | setsockopt | shutdown
  | read | write | close | fcntl | fstat | lseek | openat | rename | unlink | stat
  | epollCreate1 | epollCtl | epollWait | epollPwait
  | futex | clone | getpid | gettid | setRobustList
  | brk | mmap | munmap | mprotect | mremap | mlock | munlock
  | clockGettime | gettimeofday | nanosleep | clockNanosleep
  | getrandom
  | kill
  | wait4
  | chmod | fchmod
  | signalfd4
  | rseq | clone3 | madvise | pipe2 | pread64 | pwrite64 | getpeername | getuid | geteuid
  | getgid | getegid | ioctl | prctl | tgkill | newfstatat
deriving DecidableEq

/-- The numbers that the platform's headers give. -/
structure Abi where
  sys : Syscall → UInt32
  sigterm : UInt32
  sigkill : UInt32
  sigchld : UInt32

/-- `struct seccomp_data`. -/
structure SeccompData where
  nr : UInt32
  arch : UInt32
  instructionPointer : UInt64
  args : Fin 6 → UInt64

def seccompRetAllow : UInt32 := 0x7fff0000

def seccompRetKillProcess : UInt32 := 0x80000000

/-- `offsetof(struct seccomp_data, nr)`. -/
def offsetNr : ℕ := 0

/-- `offsetof(struct seccomp_data, args[1])`. -/
def offsetArgs1 : ℕ := 24

/-- The memory of a `struct seccomp_data`. -/
def SeccompData.image (data : SeccompData) : List UInt8 :=
  leBytes 4 data.nr.toNat ++ leBytes 4 data.arch.toNat ++
    leBytes 8 data.instructionPointer.toNat ++
    (List.finRange 6).flatMap fun i => leBytes 8 (data.args i).toNat

/-- A load of the filter: an aligned word of the data. -/
def SeccompData.load (data : SeccompData) (k : ℕ) : Option UInt32 :=
  if k % 4 = 0 ∧ k + 4 ≤ data.image.length then
    some (UInt32.ofNat (leNat ((data.image.drop k).take 4)))
  else none

/-- The arguments of `ALLOW_SYSCALL` in front of the rule for `SYS_kill`. -/
def allowedBeforeKill : List Syscall :=
  [.exitGroup, .exit,
    .rtSigaction, .rtSigprocmask, .rtSigreturn, .sigaltstack,
    .socket, .bind, .listen, .accept, .accept4, .connect, .sendto, .recvfrom, .sendmsg,
    .recvmsg, .getsockname, .getsockopt, .setsockopt, .shutdown,
    .read, .write, .close, .fcntl, .fstat, .lseek, .openat, .rename, .unlink, .stat,
    .epollCreate1, .epollCtl, .epollWait, .epollPwait,
    .futex, .clone, .getpid, .gettid, .setRobustList,
    .brk, .mmap, .munmap, .mprotect, .mremap, .mlock, .munlock,
    .clockGettime, .gettimeofday, .nanosleep, .clockNanosleep,
    .getrandom]

/-- The arguments of `ALLOW_SYSCALL` behind it. -/
def allowedAfterKill : List Syscall :=
  [.wait4,
    .chmod, .fchmod,
    .signalfd4,
    .rseq, .clone3, .madvise, .pipe2, .pread64, .pwrite64, .getpeername, .getuid, .geteuid,
    .getgid, .getegid, .ioctl, .prctl, .tgkill, .newfstatat]

/-- `ALLOW_SYSCALL`. -/
def allowSyscall (nr : UInt32) : List Bpf.Insn := [.jeq nr 0 1, .ret seccompRetAllow]

/-- The rule for `SYS_kill`. -/
def killRule (abi : Abi) : List Bpf.Insn :=
  [.jeq (abi.sys .kill) 0 7,
    .ldAbs offsetArgs1,
    .jeq abi.sigterm 4 0,
    .jeq abi.sigkill 3 0,
    .jeq abi.sigchld 2 0,
    .jeq 0 1 0,
    .ret seccompRetKillProcess,
    .ret seccompRetAllow]

/-- `filter`. -/
def filter (abi : Abi) : List Bpf.Insn :=
  [.ldAbs offsetNr] ++
    (allowedBeforeKill.flatMap fun syscall => allowSyscall (abi.sys syscall)) ++
    killRule abi ++
    (allowedAfterKill.flatMap fun syscall => allowSyscall (abi.sys syscall)) ++
    [.ret seccompRetKillProcess]

/-- `struct sock_fprog`. -/
structure SockFprog where
  len : UInt16
  filter : List Bpf.Insn

/-- `sm_setup_seccomp`: the program that is installed, if one is, and the return code; the
arguments are the outcomes of the two calls of `prctl`. -/
def smSetupSeccomp (abi : Abi) (noNewPrivsOk filterOk : Bool) : Option SockFprog × ℤ :=
  let prog : SockFprog := ⟨UInt16.ofNat (filter abi).length, filter abi⟩
  if !noNewPrivsOk then (none, -1)
  else if !filterOk then (none, -1)
  else (some prog, 0)

def permittedSignals (abi : Abi) : List UInt32 := [0, abi.sigterm, abi.sigkill, abi.sigchld]

/-- The call is one of those that are allowed, or sends a permitted signal. -/
def Permitted (abi : Abi) (data : SeccompData) : Prop :=
  (∃ syscall ∈ allowedBeforeKill ++ allowedAfterKill, data.nr = abi.sys syscall) ∨
    (data.nr = abi.sys .kill ∧ (data.args 1).toUInt32 ∈ permittedSignals abi)

instance (abi : Abi) (data : SeccompData) : Decidable (Permitted abi data) :=
  inferInstanceAs (Decidable (_ ∨ _))

/-- Success means that the whole filter is installed: its length fits the field. -/
theorem smSetupSeccomp_eq_zero_iff (abi : Abi) (noNewPrivsOk filterOk : Bool) :
    (smSetupSeccomp abi noNewPrivsOk filterOk).2 = 0 ↔
      ∃ prog, (smSetupSeccomp abi noNewPrivsOk filterOk).1 = some prog ∧
        prog.filter = filter abi ∧ prog.len.toNat = (filter abi).length := by
  cases noNewPrivsOk with
  | false => simp [smSetupSeccomp]
  | true =>
      cases filterOk with
      | false => simp [smSetupSeccomp]
      | true => exact iff_of_true rfl ⟨_, rfl, rfl, rfl⟩

@[simp] theorem SeccompData.length_image (data : SeccompData) : data.image.length = 64 := by
  simp [SeccompData.image, List.finRange_succ]

theorem SeccompData.load_nr (data : SeccompData) : data.load offsetNr = some data.nr := by
  have hword : (data.image.drop offsetNr).take 4 = leBytes 4 data.nr.toNat := by
    simp [SeccompData.image, offsetNr]
  rw [SeccompData.load, if_pos (by simp [offsetNr]), hword, ofNat_leNat_leBytes_uint32]

theorem take_leBytes (v : ℕ) {w k : ℕ} (h : k ≤ w) : (leBytes w v).take k = leBytes k v := by
  induction k generalizing w v with
  | zero => rfl
  | succ k ih =>
      obtain ⟨w, rfl⟩ : ∃ w', w = w' + 1 := ⟨w - 1, by omega⟩
      rw [leBytes, leBytes, List.take_succ_cons, ih _ (by omega)]

theorem SeccompData.load_args1 (data : SeccompData) :
    data.load offsetArgs1 = some (data.args 1).toUInt32 := by
  have hword : (data.image.drop offsetArgs1).take 4 = leBytes 4 (data.args 1).toNat := by
    rw [← take_leBytes (data.args 1).toNat (by decide : 4 ≤ 8)]
    simp [SeccompData.image, offsetArgs1, List.finRange_succ, List.drop_append,
      List.take_append]
  rw [SeccompData.load, if_pos (by simp [offsetArgs1]), hword, leNat_leBytes]
  congr 1
  rw [← UInt32.toNat_inj, UInt32.toNat_ofNat', UInt64.toNat_toUInt32]
  omega

theorem eval_allowed (load : ℕ → Option UInt32) (abi : Abi) (syscalls : List Syscall)
    (rest : List Bpf.Insn) (acc : UInt32) :
    Bpf.eval load 0
        ((syscalls.flatMap fun syscall => allowSyscall (abi.sys syscall)) ++ rest) acc =
      if ∃ syscall ∈ syscalls, acc = abi.sys syscall then some seccompRetAllow
      else Bpf.eval load 0 rest acc := by
  have hrules : (syscalls.flatMap fun syscall => allowSyscall (abi.sys syscall)) =
      (syscalls.map abi.sys).flatMap (Bpf.matchRule seccompRetAllow) := by
    rw [List.flatMap_map]
    rfl
  rw [hrules, Bpf.eval_matchRules]
  simp only [List.mem_map, eq_comm]

theorem eval_signals (load : ℕ → Option UInt32) (abi : Abi) (rest : List Bpf.Insn)
    (sig : UInt32) :
    Bpf.eval load 0
        ([.jeq abi.sigterm 4 0, .jeq abi.sigkill 3 0, .jeq abi.sigchld 2 0, .jeq 0 1 0,
          .ret seccompRetKillProcess, .ret seccompRetAllow] ++ rest) sig =
      some (if sig ∈ permittedSignals abi then seccompRetAllow else seccompRetKillProcess) := by
  simp only [List.cons_append]
  by_cases hterm : sig = abi.sigterm
  · have hmem : sig ∈ permittedSignals abi := by simp [permittedSignals, hterm]
    simp only [Bpf.eval, if_pos hterm, if_pos hmem]
  by_cases hkill : sig = abi.sigkill
  · have hmem : sig ∈ permittedSignals abi := by simp [permittedSignals, hkill]
    simp only [Bpf.eval, if_neg hterm, if_pos hkill, if_pos hmem]
  by_cases hchld : sig = abi.sigchld
  · have hmem : sig ∈ permittedSignals abi := by simp [permittedSignals, hchld]
    simp only [Bpf.eval, if_neg hterm, if_neg hkill, if_pos hchld, if_pos hmem]
  by_cases hzero : sig = 0
  · have hmem : sig ∈ permittedSignals abi := by simp [permittedSignals, hzero]
    simp only [Bpf.eval, if_neg hterm, if_neg hkill, if_neg hchld, if_pos hzero, if_pos hmem]
  · have hmem : sig ∉ permittedSignals abi := by
      simp [permittedSignals, hterm, hkill, hchld, hzero]
    simp only [Bpf.eval, if_neg hterm, if_neg hkill, if_neg hchld, if_neg hzero, if_neg hmem]

/-- The rule for `SYS_kill` decides about the signals, and lets every other call pass with
its number in the accumulator. -/
theorem eval_killRule (data : SeccompData) (abi : Abi) (rest : List Bpf.Insn)
    (acc : UInt32) :
    Bpf.eval data.load 0 (killRule abi ++ rest) acc =
      if acc = abi.sys .kill then
        some (if (data.args 1).toUInt32 ∈ permittedSignals abi then seccompRetAllow
          else seccompRetKillProcess)
      else Bpf.eval data.load 0 rest acc := by
  by_cases hkill : acc = abi.sys .kill
  · rw [if_pos hkill, killRule, List.cons_append, Bpf.eval_jeq, if_pos hkill,
      List.cons_append, Bpf.eval_ldAbs data.load_args1, eval_signals]
  · rw [if_neg hkill, killRule, List.cons_append, Bpf.eval_jeq, if_neg hkill]
    rfl

theorem sys_kill_ne {abi : Abi} (hinj : Function.Injective abi.sys) {syscall : Syscall}
    (h : syscall ∈ allowedBeforeKill ++ allowedAfterKill) :
    abi.sys .kill ≠ abi.sys syscall := by
  intro heq
  rw [← hinj heq] at h
  exact absurd h (by decide)

theorem eval_filter {abi : Abi} (hinj : Function.Injective abi.sys) (data : SeccompData) :
    Bpf.eval data.load 0 (filter abi) 0 =
      some (if Permitted abi data then seccompRetAllow else seccompRetKillProcess) := by
  simp only [filter, List.append_assoc, List.cons_append, List.nil_append]
  rw [Bpf.eval_ldAbs data.load_nr, eval_allowed]
  by_cases hbefore : ∃ syscall ∈ allowedBeforeKill, data.nr = abi.sys syscall
  · obtain ⟨syscall, hmem, hnr⟩ := hbefore
    have hpermitted : Permitted abi data :=
      Or.inl ⟨syscall, List.mem_append_left _ hmem, hnr⟩
    rw [if_pos ⟨syscall, hmem, hnr⟩, if_pos hpermitted]
  · rw [if_neg hbefore, eval_killRule, eval_allowed]
    by_cases hkill : data.nr = abi.sys .kill
    · have hunlisted :
          ¬∃ syscall ∈ allowedBeforeKill ++ allowedAfterKill, data.nr = abi.sys syscall := by
        rintro ⟨syscall, hmem, hnr⟩
        exact sys_kill_ne hinj hmem (hkill.symm.trans hnr)
      have hpermitted : Permitted abi data ↔
          (data.args 1).toUInt32 ∈ permittedSignals abi := by
        rw [Permitted, or_iff_right hunlisted, and_iff_right hkill]
      simp only [hpermitted, hkill, if_true]
    · rw [if_neg hkill]
      have hpermitted : Permitted abi data ↔
          ∃ syscall ∈ allowedAfterKill, data.nr = abi.sys syscall := by
        constructor
        · rintro (⟨syscall, hmem, hnr⟩ | ⟨hnr, -⟩)
          · rcases List.mem_append.mp hmem with hmem | hmem
            · exact absurd ⟨syscall, hmem, hnr⟩ hbefore
            · exact ⟨syscall, hmem, hnr⟩
          · exact absurd hnr hkill
        · rintro ⟨syscall, hmem, hnr⟩
          exact Or.inl ⟨syscall, List.mem_append_right _ hmem, hnr⟩
      simp only [hpermitted]
      split_ifs <;> rfl

/-- The filter ends for every system call, with permission exactly for those of the policy
and with the end of the process for all others. -/
theorem filter_returns_iff {abi : Abi} (hinj : Function.Injective abi.sys)
    (data : SeccompData) :
    (Bpf.Returns data.load (filter abi) seccompRetAllow ↔ Permitted abi data) ∧
      (Bpf.Returns data.load (filter abi) seccompRetKillProcess ↔ ¬Permitted abi data) := by
  simp only [Bpf.returns_iff, eval_filter hinj, Option.some.injEq]
  by_cases hpermitted : Permitted abi data
  · simp [hpermitted, seccompRetAllow, seccompRetKillProcess]
  · simp [hpermitted, seccompRetAllow, seccompRetKillProcess]

def x8664Sys : Syscall → UInt32
  | .exitGroup => 231
  | .exit => 60
  | .rtSigaction => 13
  | .rtSigprocmask => 14
  | .rtSigreturn => 15
  | .sigaltstack => 131
  | .socket => 41
  | .bind => 49
  | .listen => 50
  | .accept => 43
  | .accept4 => 288
  | .connect => 42
  | .sendto => 44
  | .recvfrom => 45
  | .sendmsg => 46
  | .recvmsg => 47
  | .getsockname => 51
  | .getsockopt => 55
  | .setsockopt => 54
  | .shutdown => 48
  | .read => 0
  | .write => 1
  | .close => 3
  | .fcntl => 72
  | .fstat => 5
  | .lseek => 8
  | .openat => 257
  | .rename => 82
  | .unlink => 87
  | .stat => 4
  | .epollCreate1 => 291
  | .epollCtl => 233
  | .epollWait => 232
  | .epollPwait => 281
  | .futex => 202
  | .clone => 56
  | .getpid => 39
  | .gettid => 186
  | .setRobustList => 273
  | .brk => 12
  | .mmap => 9
  | .munmap => 11
  | .mprotect => 10
  | .mremap => 25
  | .mlock => 149
  | .munlock => 150
  | .clockGettime => 228
  | .gettimeofday => 96
  | .nanosleep => 35
  | .clockNanosleep => 230
  | .getrandom => 318
  | .kill => 62
  | .wait4 => 61
  | .chmod => 90
  | .fchmod => 91
  | .signalfd4 => 289
  | .rseq => 334
  | .clone3 => 435
  | .madvise => 28
  | .pipe2 => 293
  | .pread64 => 17
  | .pwrite64 => 18
  | .getpeername => 52
  | .getuid => 102
  | .geteuid => 107
  | .getgid => 104
  | .getegid => 108
  | .ioctl => 16
  | .prctl => 157
  | .tgkill => 234
  | .newfstatat => 262

def x8664 : Abi := ⟨x8664Sys, 15, 9, 17⟩

theorem x8664_injective : Function.Injective x8664.sys := by
  let named : List Syscall := allowedBeforeKill ++ .kill :: allowedAfterKill
  have hmem : ∀ syscall, syscall ∈ named := by
    intro syscall
    cases syscall <;> decide
  have hnodup : (named.map x8664.sys).Nodup := by decide +kernel
  intro syscall syscall' heq
  exact List.inj_on_of_nodup_map hnodup (hmem syscall) (hmem syscall') heq

/-- On x86-64, the filter kills the process that sends itself `SIGUSR1`. -/
theorem filter_returns_iff_x8664 :
    let data : SeccompData := ⟨62, 0, 0, fun i => if i = 1 then 10 else 0⟩
    (Bpf.Returns data.load (filter x8664) seccompRetAllow ↔ Permitted x8664 data) ∧
      (Bpf.Returns data.load (filter x8664) seccompRetKillProcess ↔ ¬Permitted x8664 data) :=
  filter_returns_iff x8664_injective _

end Seccomp

end ServiceManager

end Shinigami
