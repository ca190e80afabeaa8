import Quantra.Lib.Bytes
import Quantra.Lib.Runs
import Quantra.Lib.Slots
import Quantra.Lib.Text

/-! `utmp.rs`: the records of logins and logouts in the files `utmp` and `wtmp`. -/
namespace Quantra.LoginRecords
open Bytes Slots Runs

def utLineSize : ℕ := 32
def utNameSize : ℕ := 32
def utHostSize : ℕ := 256
def userProcess : UInt16 := 7
def deadProcess : UInt16 := 8

/-- `size_of::<Utmp>()`. -/
def recSize : ℕ := 384

/-- `copy_str` into an array of zeros. -/
def copyStr (n : ℕ) (src : List UInt8) : List UInt8 :=
  let bytes := src.take (n - 1)
  bytes ++ List.replicate (n - bytes.length) 0

/-- The fields that are not always zero. A signed field is given by its bits. -/
structure Utmp where
  utType : UInt16
  utPid : UInt32
  utLine : List UInt8
  utId : List UInt8
  utUser : List UInt8
  utHost : List UInt8
  utTvSec : UInt32
  utTvUsec : UInt32
  line_len : utLine.length = utLineSize
  id_len : utId.length = 4
  user_len : utUser.length = utNameSize
  host_len : utHost.length = utHostSize

theorem length_copyStr {n : ℕ} (src : List UInt8) : (copyStr n src).length = n := by
  unfold copyStr
  simp only [List.length_append, List.length_replicate, List.length_take]
  omega

/-- The bytes of `s[s.len().saturating_sub(4)..]`, which panics inside a character. -/
def lastFour (s : String) : Option (List UInt8) :=
  let bytes := asBytes s
  let start := bytes.length - 4
  if bytes[start]?.all fun b => b < 128 || 192 ≤ b then some (bytes.drop start) else none

def trimDev : ℕ → List Char → List Char
  | 0, cs => cs
  | n + 1, cs => (("/dev/".toList.isPrefixOf? cs).map (trimDev n)).getD cs

/-- `tty.trim_start_matches("/dev/")`. -/
def lineOf (tty : String) : String := String.ofList (trimDev tty.toList.length tty.toList)

def idField (bytes : List UInt8) : List UInt8 :=
  bytes.take 4 ++ List.replicate (4 - (bytes.take 4).length) 0

theorem length_idField (bytes : List UInt8) : (idField bytes).length = 4 := by
  unfold idField
  simp only [List.length_append, List.length_replicate, List.length_take]
  omega

/-- `SystemTime::now()`, as far as the fields have room for it. -/
structure Now where
  secs : UInt32
  micros : UInt32
  deriving DecidableEq, Repr

def buildUtmp (utType : UInt16) (pid : UInt32) (tty user host id : String) (now : Now) :
    Option Utmp :=
  (lastFour (if id.isEmpty then lineOf tty else id)).map fun idSrc =>
    { utType := utType
      utPid := pid
      utLine := copyStr utLineSize (asBytes (lineOf tty))
      utId := idField idSrc
      utUser := copyStr utNameSize (asBytes user)
      utHost := copyStr utHostSize (asBytes host)
      utTvSec := now.secs
      utTvUsec := now.micros
      line_len := length_copyStr _
      id_len := length_idField _
      user_len := length_copyStr _
      host_len := length_copyStr _ }

/-- `utmp_as_bytes`, with the layout of the C struct. -/
def utmpAsBytes (r : Utmp) : List UInt8 :=
  leBytes 2 r.utType.toNat ++ ([0, 0] ++ (leBytes 4 r.utPid.toNat ++ (r.utLine ++ (r.utId ++
    (r.utUser ++ (r.utHost ++ (List.replicate 8 0 ++ (leBytes 4 r.utTvSec.toNat ++
      (leBytes 4 r.utTvUsec.toNat ++ List.replicate 36 0)))))))))

/-- A record of the file has the pid or the line. -/
def matchesRecord (r : Utmp) (existing : List UInt8) : Bool :=
  leValue ((existing.drop 4).take 4) == r.utPid.toNat || (existing.drop 8).take 32 == r.utLine

def writeUtmpRecord (data : List UInt8) (r : Utmp) : List UInt8 :=
  let n := data.length / recSize
  match (List.range n).find? fun i =>
      matchesRecord r ((data.drop (i * recSize)).take recSize) with
  | some i => data.take (i * recSize) ++ utmpAsBytes r ++ data.drop (i * recSize + recSize)
  | none => data ++ utmpAsBytes r

def appendWtmpRecord (data : List UInt8) (r : Utmp) : List UInt8 := data ++ utmpAsBytes r

structure Files where
  utmp : List UInt8 := []
  wtmp : List UInt8 := []
  deriving DecidableEq, Repr

def writeBoth (f : Files) (r : Utmp) : Files := ⟨writeUtmpRecord f.utmp r, appendWtmpRecord f.wtmp r⟩

def writeLogin (f : Files) (pid : UInt32) (tty username remoteHost : String) (sessionId : ℕ)
    (now : Now) : Option Files :=
  (buildUtmp userProcess pid tty username remoteHost (toString sessionId) now).map (writeBoth f)

def writeLogout (f : Files) (pid : UInt32) (tty : String) (now : Now) : Option Files :=
  (buildUtmp deadProcess pid tty "" "" "" now).map (writeBoth f)

/-! Runs of logins and logouts. -/

inductive Event
  | login (pid : UInt32) (tty username remoteHost : String) (sessionId : ℕ) (now : Now)
  | logout (pid : UInt32) (tty : String) (now : Now)
  deriving DecidableEq, Repr

structure OpenLogin where
  pid : UInt32
  tty : String
  username : String
  deriving DecidableEq, Repr

/-- The files, and the logins that are open. -/
structure World where
  files : Files := {}
  logins : List OpenLogin := []
  deriving DecidableEq, Repr

/-- ASCII without NUL, and no more than 31 bytes. -/
def TtyOk (tty : String) : Prop :=
  (∀ c ∈ tty.toList, 0 < c.toNat ∧ c.toNat < 128) ∧ (asBytes (lineOf tty)).length ≤ 31

/-- A login has a pid and a tty that no open one has, a logout those of an open one. -/
def Allowed (w : World) : Event → Prop
  | .login pid tty .. =>
    TtyOk tty ∧ ∀ o ∈ w.logins, o.pid ≠ pid ∧ lineOf o.tty ≠ lineOf tty
  | .logout pid tty _ => TtyOk tty ∧ ∃ o ∈ w.logins, o.pid = pid ∧ lineOf o.tty = lineOf tty

instance (tty : String) : Decidable (TtyOk tty) := inferInstanceAs (Decidable (_ ∧ _))

instance (w : World) : (e : Event) → Decidable (Allowed w e)
  | .login .. => inferInstanceAs (Decidable (_ ∧ _))
  | .logout .. => inferInstanceAs (Decidable (_ ∧ _))

/-- What an event does to the files; `none` if it panics. -/
def write (f : Files) : Event → Option Files
  | .login pid tty username remoteHost sessionId now =>
    writeLogin f pid tty username remoteHost sessionId now
  | .logout pid tty now => writeLogout f pid tty now

def loginsAfter (logins : List OpenLogin) : Event → List OpenLogin
  | .login pid tty username .. => ⟨pid, tty, username⟩ :: logins
  | .logout pid _ _ => logins.filter (·.pid ≠ pid)

def step (w : World) (e : Event) : Option World :=
  if Allowed w e then (write w.files e).map (⟨·, loginsAfter w.logins e⟩) else none

/-! What the file is to hold. -/

/-- A text in its array, with zeros behind it. -/
def padded (n : ℕ) (bytes : List UInt8) : List UInt8 :=
  bytes ++ List.replicate (n - bytes.length) 0

/-- What a record of the file says: its type, its pid, its line and its user. -/
def typeOf (existing : List UInt8) : ℕ := leValue (existing.take 2)

def said (existing : List UInt8) : ℕ × List UInt8 × List UInt8 :=
  (leValue ((existing.drop 4).take 4), (existing.drop 8).take 32, (existing.drop 44).take 32)

def OpenLogin.said (o : OpenLogin) : ℕ × List UInt8 × List UInt8 :=
  (o.pid.toNat, padded 32 (asBytes (lineOf o.tty)), padded 32 ((asBytes o.username).take 31))

/-- The file consists of records, those of users are the open logins, one for each, and no event
that is allowed panics. -/
structure Mirrors (w : World) : Prop where
  whole : recSize ∣ w.files.utmp.length
  users : (((slots recSize w.files.utmp).filter (typeOf · == 7)).map said).Perm
    (w.logins.map OpenLogin.said)
  writes : ∀ e, Allowed w e → (write w.files e).isSome

variable {r b : Utmp} {rs : List Utmp} {data : List UInt8} {w w' : World} {e : Event} {tty : String}
  {pid : UInt32} {logins : List OpenLogin} {o : OpenLogin}

/-! The record in bytes. -/

@[simp]
theorem length_utmpAsBytes (r : Utmp) : (utmpAsBytes r).length = recSize := by
  simp [utmpAsBytes, r.line_len, r.id_len, r.user_len, r.host_len, utLineSize, utNameSize,
    utHostSize, recSize]

theorem typeOf_utmpAsBytes (r : Utmp) : typeOf (utmpAsBytes r) = r.utType.toNat := by
  have hlt : r.utType.toNat < 256 ^ 2 := r.utType.toNat_lt
  unfold typeOf utmpAsBytes
  rw [List.take_left' (length_leBytes 2 _), leValue_leBytes, Nat.mod_eq_of_lt hlt]

theorem pid_utmpAsBytes (r : Utmp) :
    leValue (((utmpAsBytes r).drop 4).take 4) = r.utPid.toNat := by
  have hlt : r.utPid.toNat < 256 ^ 4 := r.utPid.toNat_lt
  unfold utmpAsBytes
  rw [← List.append_assoc, List.drop_left' (by simp), List.take_left' (length_leBytes 4 _),
    leValue_leBytes, Nat.mod_eq_of_lt hlt]

theorem line_utmpAsBytes (r : Utmp) : ((utmpAsBytes r).drop 8).take 32 = r.utLine := by
  unfold utmpAsBytes
  rw [← List.append_assoc, ← List.append_assoc, List.drop_left' (by simp)]
  exact List.take_left' r.line_len

theorem user_utmpAsBytes (r : Utmp) : ((utmpAsBytes r).drop 44).take 32 = r.utUser := by
  unfold utmpAsBytes
  rw [← List.append_assoc, ← List.append_assoc, ← List.append_assoc, ← List.append_assoc,
    List.drop_left' (by simp [r.line_len, r.id_len, utLineSize])]
  exact List.take_left' r.user_len

/-- What a record says. -/
def Utmp.said (r : Utmp) : ℕ × List UInt8 × List UInt8 := (r.utPid.toNat, r.utLine, r.utUser)

theorem said_utmpAsBytes (r : Utmp) : said (utmpAsBytes r) = r.said := by
  rw [said, pid_utmpAsBytes, line_utmpAsBytes, user_utmpAsBytes, Utmp.said]

/-! The file as a list of records. -/

/-- Two records with a pid or a line in common. -/
def Clash (a b : Utmp) : Prop := a.utPid = b.utPid ∨ a.utLine = b.utLine

instance : DecidableRel Clash := fun _ _ => inferInstanceAs (Decidable (_ ∨ _))

/-- The record of a user. -/
def live (r : Utmp) : Bool := r.utType == userProcess

theorem Clash.symm {a b : Utmp} (h : Clash a b) : Clash b a := h.imp Eq.symm Eq.symm

theorem matchesRecord_utmpAsBytes (r b : Utmp) :
    matchesRecord r (utmpAsBytes b) = decide (Clash b r) := by
  rw [Bool.eq_iff_iff, decide_eq_true_iff, matchesRecord, pid_utmpAsBytes, line_utmpAsBytes,
    Bool.or_eq_true, beq_iff_eq, beq_iff_eq, UInt32.toNat_inj]
  rfl

theorem length_of_mem_map {c : List UInt8} (h : c ∈ rs.map utmpAsBytes) : c.length = recSize := by
  obtain ⟨r, -, rfl⟩ := List.mem_map.1 h
  exact length_utmpAsBytes r

theorem put_map (r : Utmp) (rs : List Utmp) :
    put (matchesRecord r) (utmpAsBytes r) (rs.map utmpAsBytes) =
      (put (fun b => Clash b r) r rs).map utmpAsBytes := by
  induction rs with
  | nil => rfl
  | cons b rs ih =>
    rw [List.map_cons, put, put, matchesRecord_utmpAsBytes, ih]
    split
    · rfl
    · rfl

/-- Writing a record to the file is writing it to the list. -/
theorem writeUtmpRecord_flatten (r : Utmp) (rs : List Utmp) :
    writeUtmpRecord (rs.map utmpAsBytes).flatten r =
      ((put (fun b => Clash b r) r rs).map utmpAsBytes).flatten := by
  have hput : writeUtmpRecord (rs.map utmpAsBytes).flatten r =
      putBytes recSize (matchesRecord r) (utmpAsBytes r) (rs.map utmpAsBytes).flatten := rfl
  rw [hput, putBytes_flatten (by decide) fun c hc => length_of_mem_map hc, put_map]

/-! Names of lines. -/

theorem trimDev_suffix (n : ℕ) (cs : List Char) : trimDev n cs <:+ cs := by
  induction n generalizing cs with
  | zero => exact List.suffix_rfl
  | succ n ih =>
    unfold trimDev
    cases hpre : "/dev/".toList.isPrefixOf? cs with
    | none => exact List.suffix_rfl
    | some rest =>
      rw [Text.append_of_isPrefixOf? hpre]
      exact (ih rest).trans (List.suffix_append _ _)

theorem ascii_lineOf (h : TtyOk tty) : ∀ c ∈ (lineOf tty).toList, 0 < c.toNat ∧ c.toNat < 128 := by
  intro c hc
  rw [lineOf, String.toList_ofList] at hc
  exact h.1 c ((trimDev_suffix _ _).mem hc)

theorem asBytes_ascii {s : String} (h : ∀ c ∈ s.toList, c.toNat < 128) :
    asBytes s = s.toList.map fun c => UInt8.ofNat c.toNat := by
  rw [← asBytes_ofList_ascii h, String.ofList_toList]

/-- An ASCII text can be cut anywhere. -/
theorem lastFour_isSome {s : String} (h : ∀ c ∈ s.toList, c.toNat < 128) :
    (lastFour s).isSome := by
  have hbyte : ∀ b ∈ asBytes s, b < 128 := by
    intro b hb
    rw [asBytes_ascii h] at hb
    obtain ⟨c, hc, rfl⟩ := List.mem_map.1 hb
    have hlt := h c hc
    rw [UInt8.lt_iff_toNat_lt, UInt8.toNat_ofNat']
    show c.toNat % 256 < 128
    omega
  have hboundary : (asBytes s)[(asBytes s).length - 4]?.all (fun b => b < 128 || 192 ≤ b) := by
    rw [Option.all_eq_true]
    intro b hb
    rw [Bool.or_eq_true]
    exact .inl (decide_eq_true (hbyte b (List.mem_of_getElem? hb)))
  unfold lastFour
  dsimp only
  rw [if_pos hboundary]
  rfl

theorem padded_inj {n : ℕ} {xs ys : List UInt8} (hx : ∀ b ∈ xs, b ≠ 0) (hy : ∀ b ∈ ys, b ≠ 0)
    (h : padded n xs = padded n ys) : xs = ys := by
  have htake : ∀ zs : List UInt8, (∀ b ∈ zs, b ≠ 0) → (padded n zs).takeWhile (· ≠ 0) = zs := by
    intro zs hzs
    rw [padded, List.takeWhile_append_of_pos fun b hb => decide_eq_true (hzs b hb)]
    cases n - zs.length with
    | zero => simp
    | succ k => simp [List.replicate_succ]
  rw [← htake xs hx, h, htake ys hy]

/-- Lines that are told apart as texts are told apart in their arrays. -/
theorem lineOf_inj {tty' : String} (h : TtyOk tty) (h' : TtyOk tty')
    (heq : padded 32 (asBytes (lineOf tty)) = padded 32 (asBytes (lineOf tty'))) :
    lineOf tty = lineOf tty' := by
  have hne : ∀ {t : String}, TtyOk t → ∀ b ∈ asBytes (lineOf t), b ≠ 0 := by
    intro t ht b hb
    rw [asBytes_ascii fun c hc => (ascii_lineOf ht c hc).2] at hb
    obtain ⟨c, hc, rfl⟩ := List.mem_map.1 hb
    obtain ⟨hpos, hlt⟩ := ascii_lineOf ht c hc
    intro hzero
    have hnat := congrArg UInt8.toNat hzero
    rw [UInt8.toNat_ofNat'] at hnat
    have : c.toNat % 256 = 0 := hnat
    omega
  exact asBytes_inj.1 (padded_inj (hne h) (hne h') heq)

/-! Runs. -/

theorem exists_buildUtmp (utType : UInt16) (pid : UInt32) (user host : String) {id : String}
    (now : Now) (h : TtyOk tty) (hid : ∀ c ∈ id.toList, c.toNat < 128) :
    ∃ r, buildUtmp utType pid tty user host id now = some r ∧ r.utType = utType ∧
      r.said = (pid.toNat, padded 32 (asBytes (lineOf tty)), padded 32 ((asBytes user).take 31)) := by
  have hsrc : (lastFour (if id.isEmpty then lineOf tty else id)).isSome := by
    split
    · exact lastFour_isSome fun c hc => (ascii_lineOf h c hc).2
    · exact lastFour_isSome hid
  obtain ⟨idSrc, hidSrc⟩ := Option.isSome_iff_exists.1 hsrc
  have hline : (asBytes (lineOf tty)).take 31 = asBytes (lineOf tty) :=
    List.take_of_length_le h.2
  unfold buildUtmp
  rw [hidSrc]
  refine ⟨_, rfl, rfl, ?_⟩
  unfold Utmp.said
  dsimp only
  rw [← hline]
  simp only [copyStr, padded, List.take_take]
  rfl

/-- The records of the file against the open logins. -/
structure Tracks (rs : List Utmp) (logins : List OpenLogin) : Prop where
  front : Front live Clash rs
  perm : ((rs.filter live).map Utmp.said).Perm (logins.map OpenLogin.said)
  pids : logins.Pairwise fun o o' => o.pid ≠ o'.pid
  ttys : ∀ o ∈ logins, TtyOk o.tty

/-- An open login has a record that is live. -/
theorem Tracks.record_of_login (h : Tracks rs logins) (ho : o ∈ logins) :
    ∃ r ∈ rs, live r ∧ r.said = o.said := by
  obtain ⟨r, hr, hsaid⟩ := List.mem_map.1 (h.perm.mem_iff.2 (List.mem_map_of_mem ho))
  exact ⟨r, (List.mem_filter.1 hr).1, (List.mem_filter.1 hr).2, hsaid⟩

/-- A record that is live belongs to an open login. -/
theorem Tracks.login_of_record (h : Tracks rs logins) (hr : r ∈ rs) (hlive : live r) :
    ∃ o ∈ logins, o.said = r.said :=
  List.mem_map.1 (h.perm.mem_iff.1 (List.mem_map_of_mem (List.mem_filter.2 ⟨hr, hlive⟩)))

theorem Tracks.login (h : Tracks rs logins) (htty : TtyOk o.tty)
    (hfree : ∀ o' ∈ logins, o'.pid ≠ o.pid ∧ lineOf o'.tty ≠ lineOf o.tty)
    (htype : r.utType = userProcess) (hsaid : r.said = o.said) :
    Tracks (put (fun b => Clash b r) r rs) (o :: logins) := by
  have hlive : live r := beq_iff_eq.2 htype
  have hno : ∀ b ∈ rs, live b → ¬Clash b r := by
    intro b hb hb' hclash
    obtain ⟨o', ho', hsaid'⟩ := h.login_of_record hb hb'
    obtain ⟨hpid, hline⟩ := hfree o' ho'
    simp only [OpenLogin.said, Utmp.said, Prod.mk.injEq] at hsaid hsaid'
    rcases hclash with hclash | hclash
    · exact hpid (UInt32.toNat_inj.1 (by rw [hsaid'.1, hclash, hsaid.1]))
    · exact hline (lineOf_inj (h.ttys o' ho') htty (by rw [hsaid'.2.1, hclash, hsaid.2.1]))
  obtain ⟨hfront, hperm⟩ := put_live h.front hlive hno fun _ _ => Clash.symm
  refine ⟨hfront, ?_, List.pairwise_cons.2 ⟨fun o' ho' => (hfree o' ho').1.symm, h.pids⟩, ?_⟩
  · refine (hperm.map Utmp.said).trans ?_
    rw [List.map_cons, List.map_cons, hsaid]
    exact h.perm.cons _
  · intro o' ho'
    obtain rfl | ho' := List.mem_cons.1 ho'
    · exact htty
    · exact h.ttys o' ho'

/-- The logins without the one of a pid. -/
theorem perm_filter_pid (h : logins.Pairwise fun o o' => o.pid ≠ o'.pid) (ho : o ∈ logins) :
    (o :: logins.filter (·.pid ≠ o.pid)).Perm logins := by
  obtain ⟨pre, post, rfl⟩ := List.append_of_mem ho
  obtain ⟨-, hrest, hcross⟩ := List.pairwise_append.1 h
  obtain ⟨hafter, -⟩ := List.pairwise_cons.1 hrest
  have hpre : pre.filter (·.pid ≠ o.pid) = pre := List.filter_eq_self.2 fun o' ho' =>
    decide_eq_true (hcross o' ho' o List.mem_cons_self)
  have hpost : post.filter (·.pid ≠ o.pid) = post := List.filter_eq_self.2 fun o' ho' =>
    decide_eq_true (hafter o' ho').symm
  have hself : (o :: post).filter (·.pid ≠ o.pid) = post := by
    rw [List.filter_cons_of_neg (by simp), hpost]
  rw [List.filter_append, hself, hpre]
  exact List.perm_middle.symm

theorem Tracks.logout (h : Tracks rs logins) (ho : o ∈ logins) (htype : r.utType = deadProcess)
    (hpid : r.utPid = o.pid) (hline : r.utLine = padded 32 (asBytes (lineOf o.tty))) :
    Tracks (put (fun b => Clash b r) r rs) (logins.filter (·.pid ≠ o.pid)) := by
  obtain ⟨own, hown, hlive, hsaid⟩ := h.record_of_login ho
  simp only [OpenLogin.said, Utmp.said, Prod.mk.injEq] at hsaid
  have hpid' : r.utPid = own.utPid := UInt32.toNat_inj.1 (by rw [hpid, hsaid.1])
  have hline' : r.utLine = own.utLine := by rw [hline, hsaid.2.1]
  have hdead : live r = false := by
    rw [live, htype]
    rfl
  obtain ⟨hfront, hperm⟩ := put_dead h.front hown hlive hdead (.inl hpid'.symm)
    (fun b => by rw [Clash, Clash, hpid', hline']) fun b => by rw [Clash, Clash, hpid', hline']
  have hlogins := perm_filter_pid h.pids ho
  refine ⟨hfront, ?_, h.pids.filter _, fun o' ho' => h.ttys o' (List.mem_of_mem_filter ho')⟩
  have hall : (own.said :: ((put (fun b => Clash b r) r rs).filter live).map Utmp.said).Perm
      (o.said :: (logins.filter (·.pid ≠ o.pid)).map OpenLogin.said) :=
    ((hperm.map Utmp.said).trans h.perm).trans (hlogins.map OpenLogin.said).symm
  have hhead : own.said = o.said := by
    simp only [OpenLogin.said, Utmp.said, hsaid]
  rw [hhead] at hall
  exact hall.cons_inv

/-- The file is a list of records that tracks the open logins. -/
def Good (w : World) : Prop :=
  ∃ rs : List Utmp, w.files.utmp = (rs.map utmpAsBytes).flatten ∧ Tracks rs w.logins

/-- What an allowed event writes, and that it tracks the logins again. -/
theorem Tracks.write (h : Tracks rs w.logins)
    (hfile : w.files.utmp = (rs.map utmpAsBytes).flatten) (he : Allowed w e) :
    ∃ files rs', LoginRecords.write w.files e = some files ∧
      files.utmp = (rs'.map utmpAsBytes).flatten ∧ Tracks rs' (loginsAfter w.logins e) := by
  have hutmp : ∀ r, (writeBoth w.files r).utmp =
      ((put (fun b => Clash b r) r rs).map utmpAsBytes).flatten := by
    intro r
    rw [← writeUtmpRecord_flatten, ← hfile]
    rfl
  cases e with
  | login pid tty username remoteHost sessionId now =>
    obtain ⟨htty, hfree⟩ := he
    have hid : ∀ c ∈ (toString sessionId).toList, c.toNat < 128 := by
      intro c hc
      rw [Nat.toString_eq_ofList_toDigits, String.toList_ofList] at hc
      have hdigit := Nat.isDigit_of_mem_toDigits (by decide) (by decide) hc
      unfold Char.isDigit at hdigit
      rw [Bool.and_eq_true, decide_eq_true_eq, decide_eq_true_eq] at hdigit
      exact Nat.lt_of_le_of_lt hdigit.2 (by decide)
    obtain ⟨r, hr, htype, hsaid⟩ :=
      exists_buildUtmp userProcess pid username remoteHost now htty hid
    refine ⟨writeBoth w.files r, _, ?_, hutmp r, ?_⟩
    · show (buildUtmp _ _ _ _ _ _ _).map _ = _
      rw [hr]
      rfl
    · exact h.login (o := ⟨pid, tty, username⟩) htty hfree htype hsaid
  | logout pid tty now =>
    obtain ⟨htty, o, ho, rfl, hline⟩ := he
    have hid : ∀ c ∈ "".toList, c.toNat < 128 := fun c hc => absurd hc List.not_mem_nil
    obtain ⟨r, hr, htype, hsaid⟩ := exists_buildUtmp deadProcess o.pid "" "" now htty hid
    simp only [Utmp.said, Prod.mk.injEq, UInt32.toNat_inj] at hsaid
    refine ⟨writeBoth w.files r, _, ?_, hutmp r, ?_⟩
    · show (buildUtmp _ _ _ _ _ _ _).map _ = _
      rw [hr]
      rfl
    · exact h.logout ho htype hsaid.1 (by rw [hsaid.2.1, hline])

theorem step_eq_some_iff : step w e = some w' ↔
    Allowed w e ∧ ∃ files, write w.files e = some files ∧ w' = ⟨files, loginsAfter w.logins e⟩ := by
  unfold step
  split
  · rename_i he
    rw [Option.map_eq_some_iff]
    constructor
    · rintro ⟨files, hfiles, rfl⟩
      exact ⟨he, files, hfiles, rfl⟩
    · rintro ⟨-, files, hfiles, rfl⟩
      exact ⟨files, hfiles, rfl⟩
  · rename_i he
    exact iff_of_false (fun h => by cases h) fun h => he h.1

/-- The step lemma: an event finds the record that it is about, and no other. -/
theorem Good.step (h : Good w) (hstep : step w e = some w') : Good w' := by
  obtain ⟨rs, hfile, htracks⟩ := h
  obtain ⟨he, files, hfiles, rfl⟩ := step_eq_some_iff.1 hstep
  obtain ⟨files', rs', hfiles', hfile', htracks'⟩ := htracks.write hfile he
  cases hfiles.symm.trans hfiles'
  exact ⟨rs', hfile', htracks'⟩

theorem Good.mirrors (h : Good w) : Mirrors w := by
  obtain ⟨rs, hfile, htracks⟩ := h
  have hlen : ∀ c ∈ rs.map utmpAsBytes, c.length = recSize := fun c hc => length_of_mem_map hc
  refine ⟨?_, ?_, fun e he => ?_⟩
  · rw [hfile, length_flatten hlen]
    exact Nat.dvd_mul_left _ _
  · have hlive : ∀ r : Utmp, (typeOf (utmpAsBytes r) == 7) = live r := by
      intro r
      rw [typeOf_utmpAsBytes, Bool.eq_iff_iff, beq_iff_eq, live, beq_iff_eq, ← UInt16.toNat_inj]
      rfl
    have hsaid : said ∘ utmpAsBytes = Utmp.said := funext said_utmpAsBytes
    rw [hfile, slots_flatten (by decide) hlen, List.filter_map, List.map_map, hsaid]
    have hfilter : rs.filter ((fun existing => typeOf existing == 7) ∘ utmpAsBytes) =
        rs.filter live := congrArg (List.filter · rs) (funext hlive)
    rw [hfilter]
    exact htracks.perm
  · obtain ⟨files, -, hfiles, -⟩ := htracks.write hfile he
    exact Option.isSome_of_eq_some hfiles

/-- From empty files, the records of users are the open logins after every sequence of logins and
logouts. -/
theorem utmp_mirrors_logins (events : List Event) : Always step Mirrors {} events := by
  have hstart : Good {} := ⟨[], rfl, .nil, .nil, .nil, fun o ho => absurd ho List.not_mem_nil⟩
  exact always_of_invariant Good.step (fun _ => Good.mirrors) hstart events

end Quantra.LoginRecords
