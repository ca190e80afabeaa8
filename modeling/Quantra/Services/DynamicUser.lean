import Quantra.Services.Lifecycle

/-! The uids under which the main processes of `dynamic_user` services run. -/
namespace Quantra.Supervisor
open ProcTable Quantra.Services Quantra.Signals

/-- What `start` may make of a dynamic user: a uid of the range without an entry in passwd, or root
(`none`) if every uid of the range has one. -/
def IsStartUid (passwd : Except String String) : Option ℕ → Prop
  | some u => IsDynamicUid passwd u
  | none => ∀ v, ¬ IsDynamicUid passwd v

theorem startCredentials_dynamicUser {host : Host} {svc : Service} (hdyn : svc.dynamicUser)
    {uid gid : Option ℕ} (h : startCredentials host svc = .ok (uid, gid)) :
    IsStartUid host.passwd uid := by
  unfold startCredentials at h
  rw [if_pos hdyn] at h
  cases halloc : allocateDynamicUid host.passwd with
  | error e =>
    rw [halloc] at h
    cases h
    intro v hv
    obtain ⟨ug, hug⟩ := allocateDynamicUid_ok_iff.2 ⟨v, hv⟩
    rw [halloc] at hug
    cases hug
  | ok ug =>
    rw [halloc] at h
    cases h
    exact (allocateDynamicUid_eq_ok_iff.1 halloc).2.1

theorem startCredentials_of_exhausted {host : Host} {svc : Service} (hdyn : svc.dynamicUser)
    (hnone : ∀ v, ¬ IsDynamicUid host.passwd v) :
    startCredentials host svc = .ok (none, none) := by
  unfold startCredentials
  rw [if_pos hdyn]
  cases halloc : allocateDynamicUid host.passwd with
  | error e => rfl
  | ok ug =>
    obtain ⟨v, hv⟩ := allocateDynamicUid_ok_iff.1 ⟨ug, halloc⟩
    exact absurd hv (hnone v)

/-! Credentials on their way to a launch. -/

/-- The uid that a pending launch will use is the one its own path has resolved. -/
structure Credited (svc : Service) (host : Host) (sup : Sup) : Prop where
  start : ∀ uid, sup.ctl = .launching uid → ∃ gid, startCredentials host svc = .ok (uid, gid)
  monitor : ∀ old uid, .launch old uid ∈ sup.monitors →
    ∃ gid, resolveCredentials host svc = .ok (uid, gid)

theorem Credited.setMonitor {svc : Service} {host : Host} {sup : Sup}
    (h : Credited svc host sup) {m : ℕ} {mon' : Monitor}
    (hmon' : ∀ old uid, mon' = .launch old uid →
      ∃ gid, resolveCredentials host svc = .ok (uid, gid)) :
    Credited svc host (sup.setMonitor m mon') := by
  refine ⟨h.start, fun old uid hmem => ?_⟩
  rcases List.mem_or_eq_of_mem_set hmem with hold | hnew
  · exact h.monitor old uid hold
  · exact hmon' old uid hnew.symm

theorem Credited.acts {svc : Service} {host : Host} {sys : Pid1 Tag} {members : List ℕ}
    {sup sup' : Sup} {e : LocalEvent} (h : Credited svc host sup)
    (hacts : Acts svc host sys members sup e sup') : Credited svc host sup' := by
  cases hacts with
  | callStart | giveUp | storePid | setRunning | oneshotWait | oneshotDone | callStop | stopNone
  | stopLoad | stopStep | stopDone | callKill | callSignal | signal => exact ⟨nofun, h.monitor⟩
  | resolve hctl hlaunch =>
    rename_i l
    refine ⟨fun uid huid => ?_, h.monitor⟩
    cases huid
    exact ⟨l.gid, (startLaunch_fields hlaunch).1⟩
  | settle hctl hnext => rcases hnext with rfl | rfl <;> exact ⟨nofun, h.monitor⟩
  | spawn hctl hmonitors =>
    refine ⟨nofun, fun old uid hmem => ?_⟩
    rcases hmonitors with rfl | rfl
    · exact h.monitor old uid hmem
    · rcases List.mem_append.1 hmem with hold | hnew
      · exact h.monitor old uid hold
      · cases List.mem_singleton.1 hnew
  | monitor hm hmoves hpid =>
    rename_i m choice mon mon' pid running
    have hset : Credited svc host (sup.setMonitor m mon') := by
      refine h.setMonitor fun old uid heq => ?_
      subst heq
      cases hmoves with
      | resolved hlaunch => exact ⟨_, (restartLaunch_fields hlaunch).1⟩
    exact ⟨h.start, hset.monitor⟩
  | watcher => exact ⟨h.start, h.monitor⟩

namespace World

variable {cfg : Config}

theorem credited_step {w w' : World} {e : Event} (hstep : w.step cfg e = some w')
    (h : ∀ k, Credited (cfg.services k) cfg.host (w.sups k)) (k : ℕ) :
    Credited (cfg.services k) cfg.host (w'.sups k) := by
  rcases step_sups hstep k with ⟨hsame, -⟩ | ⟨pid, uid, rfl, -, hsup⟩ |
    ⟨m, pid, old, uid, rfl, -, hsup⟩ | ⟨le, rfl, hacts⟩
  · rw [hsame]
    exact h k
  · rw [hsup]
    exact ⟨nofun, (h k).monitor⟩
  · rw [hsup]
    exact (h k).setMonitor nofun
  · exact (h k).acts hacts

/-- Every main process and daemon has a uid that `uidOk` allows for its service and origin. -/
structure Accounted (cfg : Config) (uidOk : ℕ → Origin → Option ℕ → Prop) (w : World) : Prop where
  credited : ∀ k, Credited (cfg.services k) cfg.host (w.sups k)
  uid : ∀ i p k, w.sys.table.get i = some p → p.tag.service = some k → p.tag.origin ≠ .other →
    uidOk k p.tag.origin p.tag.uid

/-- It is enough that the credentials of each path to a launch are allowed and that daemons may
keep the uid of the process that forked them. -/
theorem accounted_of_reach {ok : World → Event → Prop} {uidOk : ℕ → Origin → Option ℕ → Prop}
    (hstart : ∀ k uid gid, startCredentials cfg.host (cfg.services k) = .ok (uid, gid) →
      uidOk k .start uid)
    (hmonitor : ∀ w k m pid uid gid, ok w (.monitorLaunch k m pid) →
      resolveCredentials cfg.host (cfg.services k) = .ok (uid, gid) → uidOk k .monitor uid)
    (hdaemon : ∀ k origin uid, uidOk k origin uid → uidOk k .daemon uid) {w : World}
    (hreach : Runs.Reach (step cfg) ok init w) : Accounted cfg uidOk w := by
  have hinit : Accounted cfg uidOk init := ⟨fun k => ⟨nofun, nofun⟩, nofun⟩
  refine hreach.invariant (fun {t u e} h hok hnext => ?_) hinit
  refine ⟨credited_step hnext h.credited, fun i p' k hp' hk hother => ?_⟩
  rcases step_procs hnext hp' with ⟨p, hp, hlater⟩ | ⟨-, hborn⟩
  · rw [hlater.tag] at hk hother ⊢
    exact h.uid i p k hp hk hother
  · cases hborn with
    | start hctl =>
      cases hk
      obtain ⟨gid, hcreds⟩ := (h.credited k).start _ hctl
      exact hstart k _ gid hcreds
    | monitor hm =>
      cases hk
      obtain ⟨gid, hcreds⟩ := (h.credited k).monitor _ _ (List.mem_of_getElem? hm)
      exact hmonitor t k _ _ _ gid hok hcreds
    | daemon hp hlive hservice =>
      cases hk
      obtain ⟨q, hq, -, -, hqother, -⟩ := isLiveMain_iff.1 hlive
      rw [hp] at hq
      cases hq
      have hparent := h.uid _ _ k hp hservice hqother
      exact hdaemon k _ _ hparent
    | foreign => exact absurd rfl hother

/-- A monitor relaunches a dynamic user only if the configured user and group stand for the
credentials that `start` would use. -/
def RestartsAlike (cfg : Config) (_ : World) : Event → Prop
  | .monitorLaunch k _ _ => (cfg.services k).dynamicUser →
    resolveCredentials cfg.host (cfg.services k) = startCredentials cfg.host (cfg.services k)
  | _ => True

instance (w : World) (e : Event) : Decidable (RestartsAlike cfg w e) :=
  match e with
  | .monitorLaunch k _ _ => inferInstanceAs (Decidable ((cfg.services k).dynamicUser →
      resolveCredentials cfg.host (cfg.services k) = startCredentials cfg.host (cfg.services k)))
  | .kernel _ | .foreign _ _ _ _ | .daemonize _ _ | .startLaunch _ _ | .sup _ _ =>
    inferInstanceAs (Decidable True)

/-- Whatever the run, `start` launches a dynamic user under a uid of the range without an entry, or as
root if there is none; where monitors restart services alike, this goes for every live main
process. -/
theorem dynamicUser_of_reach (cfg : Config) (w : World) :
    (Runs.Reach (step cfg) (fun _ _ => True) init w → ∀ k i p, w.isLiveMain k i →
      w.sys.table.get i = some p → (cfg.services k).dynamicUser → p.tag.origin = .start →
      IsStartUid cfg.host.passwd p.tag.uid) ∧
    (Runs.Reach (step cfg) (RestartsAlike cfg) init w → ∀ k i p, w.isLiveMain k i →
      w.sys.table.get i = some p → (cfg.services k).dynamicUser →
      IsStartUid cfg.host.passwd p.tag.uid) := by
  have hmain : ∀ {k i p}, w.isLiveMain k i → w.sys.table.get i = some p →
      p.tag.service = some k ∧ p.tag.origin ≠ .other := by
    intro k i p hlive hp
    obtain ⟨q, hq, -, hservice, horigin, -⟩ := isLiveMain_iff.1 hlive
    rw [hp] at hq
    cases hq
    exact ⟨hservice, horigin⟩
  constructor
  · intro hreach k i p hlive hp hdyn hstart
    have hacc : Accounted cfg (fun k origin uid => origin = .start →
        (cfg.services k).dynamicUser → IsStartUid cfg.host.passwd uid) w :=
      accounted_of_reach (fun k uid gid hcreds _ hdyn => startCredentials_dynamicUser hdyn hcreds)
        (fun _ k m pid uid gid _ _ horigin => by cases horigin)
        (fun k origin uid _ horigin => by cases horigin) hreach
    obtain ⟨hservice, horigin⟩ := hmain hlive hp
    exact hacc.uid i p k hp hservice horigin hstart hdyn
  · intro hreach k i p hlive hp hdyn
    have hacc : Accounted cfg (fun k _ uid =>
        (cfg.services k).dynamicUser → IsStartUid cfg.host.passwd uid) w := by
      refine accounted_of_reach
        (fun k uid gid hcreds hdyn => startCredentials_dynamicUser hdyn hcreds)
        (fun _ k m pid uid gid hok hcreds hdyn => ?_) (fun k origin uid h => h) hreach
      rw [hok hdyn] at hcreds
      exact startCredentials_dynamicUser hdyn hcreds
    obtain ⟨hservice, horigin⟩ := hmain hlive hp
    exact hacc.uid i p k hp hservice horigin hdyn

/-- Two services with a dynamic user, the second restarted under the uid that it also names. -/
def dynamicPair : Config where
  services k :=
    if k = 0 then { name := "web", command := "/bin/web", dynamicUser := true }
    else { name := "db", command := "/bin/db", dynamicUser := true, restart := .always
           user := some "60000", group := some "60000" }
  host := bareHost

theorem dynamicUser_of_restart :
    ∃ w, Runs.Reach (step dynamicPair) (RestartsAlike dynamicPair) init w ∧
      w.liveMains 0 = [0] ∧ w.liveMains 1 = [2] ∧
      (∀ k i p, w.isLiveMain k i → w.sys.table.get i = some p →
        (dynamicPair.services k).dynamicUser → p.tag.origin = .start →
        IsStartUid dynamicPair.host.passwd p.tag.uid) ∧
      (∀ k i p, w.isLiveMain k i → w.sys.table.get i = some p →
        (dynamicPair.services k).dynamicUser → IsStartUid dynamicPair.host.passwd p.tag.uid) := by
  obtain ⟨w, hreach, hcheck⟩ := Runs.exists_reach_of_exec (step dynamicPair)
    (RestartsAlike dynamicPair) init
    (startEvents 0 100 ++ startEvents 1 101 ++ exitEvents 1 1 ++
      List.replicate 7 (Event.sup 1 (.monitor 0 false)) ++ [Event.monitorLaunch 1 0 102])
    (fun w => w.liveMains 0 = [0] ∧ w.liveMains 1 = [2]) (by decide +kernel)
  obtain ⟨hweb, hdb⟩ := of_decide_eq_true hcheck
  have hany : Runs.Reach (step dynamicPair) (fun _ _ => True) init w :=
    hreach.mono fun _ _ _ => trivial
  obtain ⟨hstart, hall⟩ := dynamicUser_of_reach dynamicPair w
  exact ⟨w, hreach, hweb, hdb, hstart hany, hall hreach⟩

/-! A machine whose passwd is full. -/

def passwdLine (u : ℕ) : List Char :=
  'd' :: Nat.toDigits 10 u ++ ':' :: 'x' :: ':' :: Nat.toDigits 10 u ++
    ":60000::/:/bin/false".toList

def fullPasswd : String :=
  String.ofList (((List.range' 60000 5534).map passwdLine).flatMap (· ++ ['\n']))

theorem parse_passwdLine {u : ℕ} (h : u < 2 ^ 32) :
    (Text.split ':' (String.ofList (passwdLine u)))[2]?.bind Text.parseU32 = some u := by
  have hdigits : ':' ∉ Nat.toDigits 10 u := fun hmem => by
    have hdigit := Nat.isDigit_of_mem_toDigits (by decide) (by decide) hmem
    cases hdigit
  have hname : ':' ∉ 'd' :: Nat.toDigits 10 u := by simp [hdigits]
  have hx : ':' ∉ ['x'] := by decide
  have hsplit : Text.splitChars ':' (passwdLine u) =
      ('d' :: Nat.toDigits 10 u) :: ['x'] :: Nat.toDigits 10 u ::
        Text.splitChars ':' "60000::/:/bin/false".toList := by
    have hline : passwdLine u = ('d' :: Nat.toDigits 10 u) ++ ':' :: (['x'] ++
        ':' :: (Nat.toDigits 10 u ++ ':' :: "60000::/:/bin/false".toList)) := by
      simp [passwdLine]
    rw [hline, Text.splitChars_append hname, Text.splitChars_append hx,
      Text.splitChars_append hdigits]
  simp only [Text.split, String.toList_ofList, hsplit, List.map_cons, List.getElem?_cons_succ,
    List.getElem?_cons_zero, Option.bind_some]
  exact Text.parseU32_toDigits h

theorem lines_fullPasswd : Text.lines fullPasswd =
    (List.range' 60000 5534).map fun u => String.ofList (passwdLine u) := by
  unfold fullPasswd
  rw [Text.lines_terminated, List.map_map]
  · rfl
  intro cs hcs
  obtain ⟨u, -, rfl⟩ := List.mem_map.1 hcs
  have hdigits : '\n' ∉ Nat.toDigits 10 u := fun hmem => by
    have hdigit := Nat.isDigit_of_mem_toDigits (by decide) (by decide) hmem
    cases hdigit
  constructor
  · simp [passwdLine, hdigits]
  · have hlast : ":60000::/:/bin/false".toList.getLast? = some 'e' := by decide
    rw [passwdLine, List.getLast?_append, hlast]
    simp

theorem not_isDynamicUid_fullPasswd (v : ℕ) : ¬ IsDynamicUid (.ok fullPasswd) v := by
  intro ⟨hmin, hmax, hfree⟩
  unfold dynamicUidMin at hmin
  unfold dynamicUidMax at hmax
  apply hfree
  have hparse := parse_passwdLine (u := v) (by omega)
  have hlength : 3 ≤ (Text.split ':' (String.ofList (passwdLine v))).length := by
    by_contra hshort
    rw [List.getElem?_eq_none (by omega)] at hparse
    cases hparse
  have hline : String.ofList (passwdLine v) ∈ Text.lines fullPasswd := by
    rw [lines_fullPasswd]
    exact List.mem_map_of_mem (List.mem_range'_1.2 (by omega))
  simp only [usedUids, Except.toOption, Option.getD_some, List.mem_filterMap]
  exact ⟨_, hline, by rw [if_pos hlength, hparse]⟩

/-- `start` up to the launch, in a state where the call may be made. -/
theorem reach_start {w : World} (hreach : Runs.Reach (step cfg) (fun _ _ => True) init w)
    (k pid : ℕ) {l : ServiceLaunch} (hl : startLaunch cfg.host none (cfg.services k) = .ok l)
    (hctl : (w.sups k).ctl = .idle) (hrunning : (w.sups k).running = false) {sys : Pid1 Tag}
    (hsys : w.sys.fork pid ⟨some k, l.uid, .start⟩ true = some sys) :
    ∃ w', Runs.Reach (step cfg) (fun _ _ => True) init w' ∧ w'.sys = sys ∧
      w'.handedOver = w.handedOver ∧ ∀ k' ≠ k, w'.sups k' = w.sups k' := by
  let sup : Sup := { w.sups k with
    stopRequested := false, running := false, stopped := false, ctl := .starting }
  let w₁ := w.setSup k sup
  let w₂ := w₁.setSup k { sup with ctl := .launching l.uid }
  let w₃ := { w₂ with sys }.setSup k { sup with ctl := .launched pid }
  have hcall : w.step cfg (.sup k .callStart) = some w₁ := by
    simp [step, Sup.localStep, assign, hctl, hrunning, w₁, sup]
  have hresolve : w₁.step cfg (.sup k .resolve) = some w₂ := by
    simp [step, Sup.localStep, assign, setSup, hl, w₁, w₂, sup]
  have hlaunch : w₂.step cfg (.startLaunch k pid) = some w₃ := by
    have hfork : w₁.sys.fork pid ⟨some k, l.uid, .start⟩ true = some sys := hsys
    simp [step, launch, hfork, setSup, w₂, w₃]
  refine ⟨w₃, ((hreach.tail trivial hcall).tail trivial hresolve).tail trivial hlaunch, rfl, rfl,
    fun k' hk' => ?_⟩
  simp [setSup, hk', w₁, w₂, w₃]

/-- Two services with a dynamic user on a machine without a free uid. -/
def exhaustedPair : Config where
  services k :=
    { name := if k = 0 then "web" else "db", command := "/bin/web", dynamicUser := true }
  host := { bareHost with passwd := .ok fullPasswd }

/-- Every live main process of a dynamic user has a uid of the range without an entry in passwd,
and no two services share one. -/
structure UsersIsolated (cfg : Config) (w : World) : Prop where
  uid : ∀ k i p, w.isLiveMain k i → w.sys.table.get i = some p → (cfg.services k).dynamicUser →
    ∃ u, p.tag.uid = some u ∧ IsDynamicUid cfg.host.passwd u
  apart : ∀ k k' i j p q, k ≠ k' → w.isLiveMain k i → w.isLiveMain k' j →
    w.sys.table.get i = some p → w.sys.table.get j = some q → (cfg.services k).dynamicUser →
    (cfg.services k').dynamicUser → p.tag.uid ≠ q.tag.uid

theorem exists_exhausted_launch (k : ℕ)
    (h : (startLaunch bareHost none (exhaustedPair.services k)).isOk) :
    ∃ l, startLaunch exhaustedPair.host none (exhaustedPair.services k) = .ok l ∧ l.uid = none := by
  have hcreds : startCredentials exhaustedPair.host (exhaustedPair.services k) = .ok (none, none) :=
    startCredentials_of_exhausted rfl not_isDynamicUid_fullPasswd
  cases hbare : startLaunch bareHost none (exhaustedPair.services k) with
  | error e =>
    rw [hbare] at h
    cases h
  | ok l => exact exists_startLaunch hbare hcreds

/-- With every uid of the range in passwd, dynamic users run as root, all of them. -/
theorem dynamicUsers_fall_back_to_root :
    ∃ w, Runs.Reach (step exhaustedPair) (fun _ _ => True) init w ∧
      w.isLiveMain 0 0 ∧ w.isLiveMain 1 1 ∧ ¬ UsersIsolated exhaustedPair w := by
  obtain ⟨l, hl, huid⟩ := exists_exhausted_launch 0 (by decide +kernel)
  obtain ⟨l', hl', huid'⟩ := exists_exhausted_launch 1 (by decide +kernel)
  obtain ⟨w₁, hreach₁, hsys₁, hhanded₁, hother₁⟩ :=
    reach_start (w := init) .refl 0 100 hl rfl rfl rfl
  have hidle : w₁.sups 1 = {} := hother₁ 1 (by decide)
  obtain ⟨w, hreach, hsys, hhanded, -⟩ := reach_start hreach₁ 1 101 hl' (by rw [hidle])
    (by rw [hidle]) (by rw [hsys₁]; rfl)
  have hzero : w.sys.table.get 0 = some ⟨100, ⟨some 0, none, .start⟩, true, .alive⟩ := by
    rw [hsys, ← huid]
    rfl
  have hone : w.sys.table.get 1 = some ⟨101, ⟨some 1, none, .start⟩, true, .alive⟩ := by
    rw [hsys, ← huid']
    rfl
  have hnever : ∀ i, w.handedOver i = false := by
    rw [hhanded, hhanded₁]
    exact fun _ => rfl
  have hlive : w.isLiveMain 0 0 := isLiveMain_iff.2 ⟨_, hzero, rfl, rfl, nofun, hnever 0⟩
  have hlive' : w.isLiveMain 1 1 := isLiveMain_iff.2 ⟨_, hone, rfl, rfl, nofun, hnever 1⟩
  refine ⟨w, hreach, hlive, hlive', fun h => ?_⟩
  obtain ⟨u, hu, -⟩ := h.uid 0 0 _ hlive hzero rfl
  cases hu

end World
end Quantra.Supervisor
