import Quantra.Ramfs.Tpm2Wire
import Mathlib.Data.List.Perm.Subperm

/-! The handles that `unseal_luks_key` makes the TPM create, and which of them it flushes, for every
sequence of answers. -/
namespace Quantra.Tpm2
open Bytes Calls Calls.Prog

/-- A call with its answer. -/
abbrev Exchange := Call × Reply

def commandCode (cmd : List UInt8) : Option UInt32 := (u32At cmd 6).toOption

/-- The response to the command, if it has no error code. -/
def response (x : Exchange) : Option (List UInt8 × List UInt8) :=
  match x.1 with
  | .read cmd => (checkResponse x.2).toOption.map fun resp => (cmd, resp)
  | _ => none

/-- The handle of the object or of the session that the TPM has created. -/
def created (code : UInt32) (x : Exchange) : Option UInt32 :=
  (response x).bind fun r =>
    if commandCode r.1 = some code then (u32At r.2 10).toOption else none

def createdAny (x : Exchange) : Option UInt32 :=
  (created tpm2CcLoad x).or (created tpm2CcStartAuthSession x)

/-- The handle of a flush that has been written. -/
def flushed (x : Exchange) : Option UInt32 :=
  match x.1 with
  | .read cmd =>
    if commandCode cmd = some tpm2CcFlushContext then (u32At cmd 10).toOption else none
  | _ => none

/-- The device without a resource manager, which keeps what it has created when it is closed. -/
def OnRawDevice (log : List Exchange) : Prop :=
  ∃ x ∈ log, x.1 = .openDevice "/dev/tpm0" ∧ x.2.result.isOk

/-- For each handle that has been created there is a flush. -/
def NoLeak (log : List Exchange) : Prop :=
  OnRawDevice log → (log.filterMap createdAny).Subperm (log.filterMap flushed)

/-- The bytes are taken, and there is no error and all that is to be read in the response. -/
def Accepted (x : Exchange) : Prop :=
  match x.1 with
  | .write _ => 0 < x.2.count
  | .read cmd => commandCode cmd = some tpm2CcFlushContext ∨ ∃ resp, checkResponse x.2 = .ok resp ∧
    (commandCode cmd = some tpm2CcLoad → 18 ≤ resp.length) ∧
    (commandCode cmd = some tpm2CcStartAuthSession → 14 ≤ resp.length) ∧
    (commandCode cmd = some tpm2CcUnseal → (unsealResponse resp).isOk)
  | _ => True

instance : DecidablePred Accepted := fun x =>
  match x with
  | (.write _, r) => inferInstanceAs (Decidable (0 < r.count))
  | (.read cmd, r) =>
    match hr : checkResponse r with
    | .ok resp => decidable_of_iff (commandCode cmd = some tpm2CcFlushContext ∨
        ((commandCode cmd = some tpm2CcLoad → 18 ≤ resp.length) ∧
        (commandCode cmd = some tpm2CcStartAuthSession → 14 ≤ resp.length) ∧
        (commandCode cmd = some tpm2CcUnseal → (unsealResponse resp).isOk))) (by simp [Accepted, hr])
    | .error _ => decidable_of_iff (commandCode cmd = some tpm2CcFlushContext)
        (by simp [Accepted, hr])
  | (.readFile _, _) | (.readToString _, _) | (.openDevice _, _) | (.close, _) => isTrue trivial

/-- Once the sealed object is in the TPM, nothing goes wrong any more. -/
def Undisturbed (log : List Exchange) : Prop :=
  OnRawDevice log → (∃ x ∈ log, (created tpm2CcLoad x).isSome) → ∀ x ∈ log, Accepted x

/-! One command and its response. -/

section Exchange
variable {α : Type} {cmd : List UInt8} {part : List UInt8 → Except Stop α} {xs ws : List Exchange}
  {code : UInt32} {reply : Reply}

def IsWrite (x : Exchange) : Prop := ∃ bytes, x.1 = .write bytes

theorem writeAll_ends {n : ℕ} {r : Except Stop Unit} (h : (writeAll n cmd).Ends xs r) :
    (∀ x ∈ xs, IsWrite x) ∧
      ((r = .ok () ∧ ∀ x ∈ xs, Accepted x) ∨ (∃ e, r = .error e) ∧ ∃ x ∈ xs, ¬Accepted x) := by
  induction n generalizing cmd xs with
  | zero =>
    obtain ⟨rfl, rfl⟩ := ends_ret h
    simp
  | succ n ih =>
    cases cmd with
    | nil =>
      obtain ⟨rfl, rfl⟩ := ends_ret h
      simp
    | cons b cmd =>
      obtain ⟨o, ys, rfl, hrest⟩ := ends_call h
      by_cases hcount : o.count ≤ 0
      · rw [if_pos hcount] at hrest
        obtain ⟨rfl, rfl⟩ := ends_ret hrest
        refine ⟨?_, .inr ⟨⟨_, rfl⟩, _, List.mem_singleton_self _, ?_⟩⟩
        · intro x hx
          rw [List.mem_singleton.1 hx]
          exact ⟨_, rfl⟩
        · exact fun hpos : 0 < o.count => absurd hpos (Int.not_lt.2 hcount)
      · rw [if_neg hcount] at hrest
        obtain ⟨hwrites, hend⟩ := ih hrest
        constructor
        · intro x hx
          rcases List.mem_cons.1 hx with rfl | hx
          · exact ⟨_, rfl⟩
          · exact hwrites x hx
        · obtain ⟨hr, hall⟩ | ⟨hr, x, hx, hbad⟩ := hend
          · refine .inl ⟨hr, ?_⟩
            intro x hx
            rcases List.mem_cons.1 hx with rfl | hx
            · exact Int.not_le.1 hcount
            · exact hall x hx
          · exact .inr ⟨hr, x, List.mem_cons_of_mem _ hx, hbad⟩

/-- The command is not taken, or it is taken and answered. -/
theorem tpm2Send_ends {r : Except Stop (List UInt8)} (h : (tpm2Send cmd).Ends xs r) :
    ∃ ws, (∀ x ∈ ws, IsWrite x) ∧
      ((xs = ws ∧ (∃ e, r = .error e) ∧ ∃ x ∈ ws, ¬Accepted x) ∨
        ∃ reply, xs = ws ++ [(Call.read cmd, reply)] ∧ (∀ x ∈ ws, Accepted x) ∧
          r = checkResponse reply) := by
  obtain ⟨ws, zs, b, rfl, hwrite, hread⟩ | ⟨e, hwrite, rfl⟩ := ends_check_error h
  · obtain ⟨hwrites, ⟨-, hall⟩ | ⟨⟨e, he⟩, -⟩⟩ := writeAll_ends hwrite
    · obtain ⟨reply, rest, rfl, hrest⟩ := ends_call hread
      obtain ⟨rfl, rfl⟩ := ends_ret hrest
      exact ⟨ws, hwrites, .inr ⟨reply, rfl, hall, rfl⟩⟩
    · cases he
  · obtain ⟨hwrites, ⟨he, -⟩ | ⟨-, hbad⟩⟩ := writeAll_ends hwrite
    · cases he
    · exact ⟨xs, hwrites, .inl ⟨rfl, ⟨e, rfl⟩, hbad⟩⟩

theorem exchange_ends {r : Except Stop α} (h : (exchange cmd part).Ends xs r) :
    ∃ ws, (∀ x ∈ ws, IsWrite x) ∧
      ((xs = ws ∧ (∃ e, r = .error e) ∧ ∃ x ∈ ws, ¬Accepted x) ∨
        ∃ reply, xs = ws ++ [(.read cmd, reply)] ∧ (∀ x ∈ ws, Accepted x) ∧
          r = checkResponse reply >>= part) := by
  obtain ⟨ys, zs, resp, rfl, hq, hpart⟩ | ⟨e, hq, rfl⟩ := ends_check_error h
  · obtain ⟨rfl, rfl⟩ := ends_ret hpart
    rw [List.append_nil]
    obtain ⟨ws, hwrites, ⟨-, ⟨e, he⟩, -⟩ | ⟨reply, hys, hall, hresp⟩⟩ := tpm2Send_ends hq
    · cases he
    · exact ⟨ws, hwrites, .inr ⟨reply, hys, hall, by rw [← hresp]; rfl⟩⟩
  · obtain ⟨ws, hwrites, ⟨hxs, -, hbad⟩ | ⟨reply, hxs, hall, hresp⟩⟩ := tpm2Send_ends hq
    · exact ⟨ws, hwrites, .inl ⟨hxs, ⟨e, rfl⟩, hbad⟩⟩
    · exact ⟨ws, hwrites, .inr ⟨reply, hxs, hall, by rw [← hresp]; rfl⟩⟩

theorem created_of_isWrite {x : Exchange} (h : IsWrite x) : created code x = none := by
  obtain ⟨bytes, hx⟩ := h
  unfold created response
  rw [hx]
  rfl

theorem flushed_of_isWrite {x : Exchange} (h : IsWrite x) : flushed x = none := by
  obtain ⟨bytes, hx⟩ := h
  unfold flushed
  rw [hx]

theorem created_of_ne (h : commandCode cmd ≠ some code) :
    created code (.read cmd, reply) = none := by
  unfold created response
  cases (checkResponse reply).toOption with
  | none => rfl
  | some resp => exact if_neg h

theorem created_of_eq (h : commandCode cmd = some code) :
    created code (.read cmd, reply) =
      (checkResponse reply).toOption.bind fun resp => (u32At resp 10).toOption := by
  unfold created response
  cases (checkResponse reply).toOption with
  | none => rfl
  | some resp => exact if_pos h

theorem flushed_of_ne (h : commandCode cmd ≠ some tpm2CcFlushContext) :
    flushed (.read cmd, reply) = none :=
  if_neg h

theorem none_of_exchange {β : Type} {f : Exchange → Option β} {r : Except Stop α}
    (hwrite : ∀ x, IsWrite x → f x = none) (hread : ∀ reply, f (.read cmd, reply) = none)
    (h : (exchange cmd part).Ends xs r) : ∀ x ∈ xs, f x = none := by
  obtain ⟨ws, hwrites, ⟨rfl, -⟩ | ⟨reply, rfl, -⟩⟩ := exchange_ends h
  · exact fun x hx => hwrite x (hwrites x hx)
  · intro x hx
    rcases List.mem_append.1 hx with hx | hx
    · exact hwrite x (hwrites x hx)
    · rw [List.mem_singleton.1 hx]
      exact hread reply

theorem created_of_exchange_ne {r : Except Stop α} (hcode : commandCode cmd ≠ some code)
    (h : (exchange cmd part).Ends xs r) : ∀ x ∈ xs, created code x = none :=
  none_of_exchange (fun _ => created_of_isWrite) (fun _ => created_of_ne hcode) h

theorem flushed_of_exchange_ne {r : Except Stop α}
    (hcode : commandCode cmd ≠ some tpm2CcFlushContext) (h : (exchange cmd part).Ends xs r) :
    ∀ x ∈ xs, flushed x = none :=
  none_of_exchange (fun _ => flushed_of_isWrite) (fun _ => flushed_of_ne hcode) h

/-- A command that comes to a result has been accepted, and one that fails has not. -/
theorem accepted_of_exchange {r : Except Stop α}
    (hpart : ∀ reply, Accepted (.read cmd, reply) ↔ (checkResponse reply >>= part).isOk)
    (h : (exchange cmd part).Ends xs r) : (∀ x ∈ xs, Accepted x) ↔ r.isOk := by
  obtain ⟨ws, hwrites, ⟨rfl, ⟨e, rfl⟩, x, hx, hbad⟩ | ⟨reply, rfl, hall, rfl⟩⟩ := exchange_ends h
  · exact ⟨fun hgood => absurd (hgood x hx) hbad, fun hok => by cases hok⟩
  · rw [← hpart reply]
    constructor
    · exact fun hgood => hgood _ (List.mem_append_right _ (List.mem_singleton_self _))
    · intro haccepted x hx
      rcases List.mem_append.1 hx with hx | hx
      · exact hall x hx
      · rw [List.mem_singleton.1 hx]
        exact haccepted

/-- What a command has created that returns the handle. -/
theorem created_of_exchange {r : UInt32} {part : List UInt8 → Except Stop UInt32}
    (hcode : commandCode cmd = some code)
    (hpart : ∀ resp n, part resp = .ok n → u32At resp 10 = .ok n)
    (h : (exchange cmd part).Ends xs (.ok r)) : xs.filterMap (created code) = [r] := by
  obtain ⟨ws, hwrites, ⟨-, ⟨e, he⟩, -⟩ | ⟨reply, rfl, -, hr⟩⟩ := exchange_ends h
  · cases he
  · have hnone : ws.filterMap (created code) = [] :=
      List.filterMap_eq_nil_iff.2 fun x hx => created_of_isWrite (hwrites x hx)
    have hread : created code (.read cmd, reply) = some r := by
      rw [created_of_eq hcode]
      cases hcheck : checkResponse reply with
      | error e =>
        rw [hcheck] at hr
        cases hr
      | ok resp =>
        rw [hcheck] at hr
        rw [Except.toOption, Option.bind_some, hpart resp r hr.symm]
        rfl
    rw [List.filterMap_append, hnone, List.nil_append, List.filterMap_cons_some hread]
    rfl

theorem accepted_iff_isOk (hcode : commandCode cmd = some code) (hflush : code ≠ tpm2CcFlushContext)
    (hpart : ∀ resp, (part resp).isOk ↔ (code = tpm2CcLoad → 18 ≤ resp.length) ∧
      (code = tpm2CcStartAuthSession → 14 ≤ resp.length) ∧
      (code = tpm2CcUnseal → (unsealResponse resp).isOk)) (reply : Reply) :
    Accepted (.read cmd, reply) ↔ (checkResponse reply >>= part).isOk := by
  show (commandCode cmd = some tpm2CcFlushContext ∨ _) ↔ _
  rw [hcode]
  simp only [Option.some.injEq, hflush, false_or]
  cases checkResponse reply with
  | error e =>
    constructor
    · rintro ⟨resp, hresp, -⟩
      cases hresp
    · intro hok
      cases hok
  | ok resp =>
    rw [ok_bind, hpart resp]
    constructor
    · rintro ⟨_, ⟨⟩, h⟩
      exact h
    · exact fun h => ⟨resp, rfl, h⟩

end Exchange

/-! The commands that are sent. -/

section Commands
variable {xs : List Exchange} {parent handle object session mask : UInt32}
  {publicArea privateArea : List UInt8}

theorem handleOf_isOk {least : ℕ} (hleast : 14 ≤ least) (tooShort : String) (resp : List UInt8) :
    (handleOf least tooShort resp).isOk ↔ least ≤ resp.length := by
  unfold handleOf
  by_cases hshort : resp.length < least
  · rw [if_pos hshort]
    exact ⟨fun hok => (by cases hok), fun hle => absurd hshort (Nat.not_lt.2 hle)⟩
  · obtain ⟨n, hn⟩ := u32At_of_lt (show 10 + 3 < resp.length by omega)
    rw [if_neg hshort, hn]
    exact ⟨fun _ => Nat.not_lt.1 hshort, fun _ => rfl⟩

theorem u32At_of_handleOf {least : ℕ} {tooShort : String} {resp : List UInt8}
    (h : handleOf least tooShort resp = .ok handle) : u32At resp 10 = .ok handle := by
  unfold handleOf at h
  by_cases hshort : resp.length < least
  · rw [if_pos hshort] at h
    cases h
  · rw [if_neg hshort] at h
    exact h

theorem commandCode_load : commandCode (loadCommand parent publicArea privateArea) =
    some tpm2CcLoad := rfl

theorem commandCode_startAuthSession :
    commandCode startAuthSessionCommand = some tpm2CcStartAuthSession := rfl

theorem commandCode_policyPcr : commandCode (policyPcrCommand session mask) =
    some tpm2CcPolicyPcr := rfl

theorem commandCode_unseal : commandCode (unsealCommand object session) = some tpm2CcUnseal := rfl

theorem commandCode_flushContext : commandCode (flushContextCommand handle) =
    some tpm2CcFlushContext := rfl

theorem flushed_flushContext (reply : Reply) :
    flushed (.read (flushContextCommand handle), reply) = some handle :=
  congrArg some (fromBeBytes_toBeBytes handle)

/-- The flush goes out just when it is taken; what is answered makes no difference. -/
theorem flushContext_ends {r : Except Stop Unit} (h : (tpm2FlushContext handle).Ends xs r) :
    ((∀ x ∈ xs, Accepted x) ∧ xs.filterMap flushed = [handle]) ∨
      (¬(∀ x ∈ xs, Accepted x) ∧ xs.filterMap flushed = []) := by
  obtain ⟨ws, hwrites, hend⟩ := exchange_ends h
  have hnone : ws.filterMap flushed = [] :=
    List.filterMap_eq_nil_iff.2 fun x hx => flushed_of_isWrite (hwrites x hx)
  obtain ⟨rfl, -, x, hx, hbad⟩ | ⟨reply, rfl, hall, -⟩ := hend
  · exact .inr ⟨fun hgood => hbad (hgood x hx), hnone⟩
  · refine .inl ⟨?_, ?_⟩
    · intro x hx
      rcases List.mem_append.1 hx with hx | hx
      · exact hall x hx
      · rw [List.mem_singleton.1 hx]
        exact .inl commandCode_flushContext
    · rw [List.filterMap_append, hnone, List.filterMap_cons_some (flushed_flushContext reply)]
      rfl

theorem created_flushContext {r : Except Stop Unit} (h : (tpm2FlushContext handle).Ends xs r) :
    ∀ x ∈ xs, createdAny x = none := by
  intro x hx
  unfold createdAny
  rw [created_of_exchange_ne (by rw [commandCode_flushContext]; decide) h x hx,
    created_of_exchange_ne (by rw [commandCode_flushContext]; decide) h x hx]
  rfl

/-- A command that creates nothing and flushes nothing leaves no trace of a handle. -/
theorem handles_of_exchange {α : Type} {cmd : List UInt8} {part : List UInt8 → Except Stop α}
    {r : Except Stop α} {code : UInt32} (hcode : commandCode cmd = some code)
    (hload : code ≠ tpm2CcLoad) (hstart : code ≠ tpm2CcStartAuthSession)
    (h : (exchange cmd part).Ends xs r) : xs.filterMap createdAny = [] := by
  refine List.filterMap_eq_nil_iff.2 fun x hx => ?_
  have hobject : created tpm2CcLoad x = none :=
    created_of_exchange_ne (by simpa [hcode] using hload) h x hx
  have hsession : created tpm2CcStartAuthSession x = none :=
    created_of_exchange_ne (by simpa [hcode] using hstart) h x hx
  unfold createdAny
  rw [hobject, hsession]
  rfl

theorem flushed_nil {α : Type} {cmd : List UInt8} {part : List UInt8 → Except Stop α}
    {r : Except Stop α} {code : UInt32} (hcode : commandCode cmd = some code)
    (hflush : code ≠ tpm2CcFlushContext) (h : (exchange cmd part).Ends xs r) :
    xs.filterMap flushed = [] :=
  List.filterMap_eq_nil_iff.2 (flushed_of_exchange_ne (by simpa [hcode] using hflush) h)

theorem accepted_load {r : Except Stop UInt32}
    (h : (tpm2Load parent publicArea privateArea).Ends xs r) :
    (∀ x ∈ xs, Accepted x) ↔ r.isOk := by
  refine accepted_of_exchange (accepted_iff_isOk commandCode_load (by decide) fun resp => ?_) h
  rw [loadResponse, handleOf_isOk (by decide)]
  exact ⟨fun hlen => ⟨fun _ => hlen, fun hne => absurd hne (by decide),
    fun hne => absurd hne (by decide)⟩, fun hall => hall.1 rfl⟩

theorem accepted_startAuthSession {r : Except Stop UInt32} (h : tpm2StartAuthSession.Ends xs r) :
    (∀ x ∈ xs, Accepted x) ↔ r.isOk := by
  refine accepted_of_exchange
    (accepted_iff_isOk commandCode_startAuthSession (by decide) fun resp => ?_) h
  rw [startAuthSessionResponse, handleOf_isOk (by decide)]
  exact ⟨fun hlen => ⟨fun hne => absurd hne (by decide), fun _ => hlen,
    fun hne => absurd hne (by decide)⟩, fun hall => hall.2.1 rfl⟩

theorem accepted_policyPcr {r : Except Stop Unit} (h : (tpm2PolicyPcr session mask).Ends xs r) :
    (∀ x ∈ xs, Accepted x) ↔ r.isOk := by
  refine accepted_of_exchange
    (accepted_iff_isOk commandCode_policyPcr (by decide) fun resp => ?_) h
  exact ⟨fun _ => ⟨fun hne => absurd hne (by decide), fun hne => absurd hne (by decide),
    fun hne => absurd hne (by decide)⟩, fun _ => rfl⟩

theorem accepted_unseal {r : Except Stop (List UInt8)} (h : (tpm2Unseal object session).Ends xs r) :
    (∀ x ∈ xs, Accepted x) ↔ r.isOk := by
  refine accepted_of_exchange (accepted_iff_isOk commandCode_unseal (by decide) fun resp => ?_) h
  exact ⟨fun hok => ⟨fun hne => absurd hne (by decide), fun hne => absurd hne (by decide),
    fun _ => hok⟩, fun hall => hall.2.2 rfl⟩

end Commands

/-! The run. -/

section Run
variable {xs : List Exchange} {parent object : UInt32} {blob : List UInt8}
  {r : Except Stop (List UInt8)}

/-- A run that ends early has flushed nothing. -/
theorem leak_of_unaccepted (hnone : xs.filterMap flushed = []) (hbad : ¬∀ x ∈ xs, Accepted x) :
    (object :: xs.filterMap createdAny).Subperm (xs.filterMap flushed) ↔ ∀ x ∈ xs, Accepted x := by
  rw [hnone]
  constructor
  · intro hsub
    have hlen := hsub.length_le
    simp at hlen
  · exact fun hgood => absurd hgood hbad

theorem readPcrMask_ends {mask : UInt32} (h : readPcrMask.Ends xs mask) :
    (∀ x ∈ xs, Accepted x) ∧ xs.filterMap createdAny = [] ∧ xs.filterMap flushed = [] := by
  obtain ⟨o, ys, rfl, hrest⟩ := ends_call h
  obtain ⟨rfl, -⟩ := ends_ret hrest
  refine ⟨fun x hx => ?_, rfl, rfl⟩
  rw [List.mem_singleton.1 hx]
  trivial

theorem created_startAuthSession {session : UInt32}
    (h : tpm2StartAuthSession.Ends xs (.ok session)) : xs.filterMap createdAny = [session] := by
  have hobject := created_of_exchange_ne
    (by rw [commandCode_startAuthSession]; decide : _ ≠ some tpm2CcLoad) h
  have hsame : xs.filterMap createdAny = xs.filterMap (created tpm2CcStartAuthSession) := by
    refine List.filterMap_congr fun x hx => ?_
    unfold createdAny
    rw [hobject x hx]
    rfl
  rw [hsame]
  exact created_of_exchange commandCode_startAuthSession (fun resp n => u32At_of_handleOf) h

/-- With an object in the TPM, all of the handles are flushed just when nothing goes wrong. -/
theorem unsealLoaded_ends (h : (unsealLoaded object).Ends xs r) :
    (object :: xs.filterMap createdAny).Subperm (xs.filterMap flushed) ↔ ∀ x ∈ xs, Accepted x := by
  obtain ⟨ss, rest, session, rfl, hsession, h⟩ | ⟨e, hsession, -⟩ := ends_check_error h
  swap
  · refine leak_of_unaccepted (flushed_nil commandCode_startAuthSession (by decide) hsession) ?_
    intro hall
    cases (accepted_startAuthSession hsession).1 hall
  have hsFlushed := flushed_nil commandCode_startAuthSession (by decide) hsession
  obtain ⟨ms, rest, mask, rfl, hmask, h⟩ := ends_bind h
  obtain ⟨hmAccepted, hmCreated, hmFlushed⟩ := readPcrMask_ends hmask
  obtain ⟨ps, rest, _, rfl, hpolicy, h⟩ | ⟨e, hpolicy, -⟩ := ends_check_error h
  swap
  · have hpFlushed := flushed_nil commandCode_policyPcr (by decide) hpolicy
    refine leak_of_unaccepted (by simp [hsFlushed, hmFlushed, hpFlushed]) fun hall => ?_
    cases (accepted_policyPcr hpolicy).1 fun x hx => hall x (by simp [hx])
  have hpFlushed := flushed_nil commandCode_policyPcr (by decide) hpolicy
  obtain ⟨us, rest, key, rfl, hunseal, h⟩ | ⟨e, hunseal, -⟩ := ends_check_error h
  swap
  · have huFlushed := flushed_nil commandCode_unseal (by decide) hunseal
    refine leak_of_unaccepted (by simp [hsFlushed, hmFlushed, hpFlushed, huFlushed]) fun hall => ?_
    cases (accepted_unseal hunseal).1 fun x hx => hall x (by simp [hx])
  have huFlushed := flushed_nil commandCode_unseal (by decide) hunseal
  obtain ⟨fs, rest, _, rfl, hflush, h⟩ := ends_bind h
  obtain ⟨gs, rest, _, rfl, hflush', h⟩ := ends_bind h
  obtain ⟨rfl, -⟩ := ends_ret h
  have hcreated : (ss ++ (ms ++ (ps ++ (us ++ (fs ++ (gs ++ [])))))).filterMap createdAny =
      [session] := by
    have hfs := List.filterMap_eq_nil_iff.2 (created_flushContext hflush)
    have hgs := List.filterMap_eq_nil_iff.2 (created_flushContext hflush')
    simp [created_startAuthSession hsession, hmCreated, hfs, hgs,
      handles_of_exchange commandCode_policyPcr (by decide) (by decide) hpolicy,
      handles_of_exchange commandCode_unseal (by decide) (by decide) hunseal]
  have hflushed : (ss ++ (ms ++ (ps ++ (us ++ (fs ++ (gs ++ [])))))).filterMap flushed =
      fs.filterMap flushed ++ gs.filterMap flushed := by
    simp [hsFlushed, hmFlushed, hpFlushed, huFlushed]
  have haccepted : (∀ x ∈ ss ++ (ms ++ (ps ++ (us ++ (fs ++ (gs ++ []))))), Accepted x) ↔
      (∀ x ∈ fs, Accepted x) ∧ ∀ x ∈ gs, Accepted x := by
    simp only [List.append_nil, List.forall_mem_append,
      iff_true_intro ((accepted_startAuthSession hsession).2 rfl), iff_true_intro hmAccepted,
      iff_true_intro ((accepted_policyPcr hpolicy).2 rfl),
      iff_true_intro ((accepted_unseal hunseal).2 rfl), true_and]
  rw [hcreated, hflushed, haccepted]
  obtain ⟨hfs, hf⟩ | ⟨hfs, hf⟩ := flushContext_ends hflush
  · obtain ⟨hgs, hg⟩ | ⟨hgs, hg⟩ := flushContext_ends hflush'
    · rw [hf, hg]
      exact ⟨fun _ => ⟨hfs, hgs⟩, fun _ => (List.Perm.swap session object []).subperm⟩
    · rw [hf, hg]
      exact ⟨fun hsub => absurd hsub.length_le (by simp), fun hall => absurd hall.2 hgs⟩
  · have hlen : (gs.filterMap flushed).length ≤ 1 := by
      obtain ⟨-, hg⟩ | ⟨-, hg⟩ := flushContext_ends hflush' <;> simp [hg]
    rw [hf, List.nil_append]
    refine ⟨fun hsub => absurd hsub.length_le ?_, fun hall => absurd hall.1 hfs⟩
    simp only [List.length_cons, List.length_nil]
    omega

/-- The flushes make up for what is created just when nothing goes wrong after the load. -/
def Settled (log : List Exchange) : Prop :=
  (log.filterMap createdAny).Subperm (log.filterMap flushed) ↔
    ((∃ x ∈ log, (created tpm2CcLoad x).isSome) → ∀ x ∈ log, Accepted x)

theorem settled_nil : Settled [] := by
  simp [Settled]

theorem createdAny_load {publicArea privateArea : List UInt8} {q : Except Stop UInt32}
    (h : (tpm2Load parent publicArea privateArea).Ends xs q) :
    xs.filterMap createdAny = xs.filterMap (created tpm2CcLoad) := by
  have hsession := created_of_exchange_ne
    (by rw [commandCode_load]; decide : _ ≠ some tpm2CcStartAuthSession) h
  refine List.filterMap_congr fun x hx => ?_
  unfold createdAny
  rw [hsession x hx, Option.or_none]

theorem unsealWith_ends (h : (unsealWith blob parent).Ends xs r) : Settled xs := by
  obtain ⟨ys, zs, areas, rfl, hparse, h⟩ | ⟨e, hparse, -⟩ := ends_check_error h
  swap
  · rw [(ends_ret hparse).1]
    exact settled_nil
  rw [(ends_ret hparse).1, List.nil_append]
  unfold Settled
  obtain ⟨ls, rest, object, rfl, hload, h⟩ | ⟨e, hload, -⟩ := ends_check_error h
  · have hcreated : ls.filterMap (created tpm2CcLoad) = [object] :=
      created_of_exchange commandCode_load (fun resp n => u32At_of_handleOf) hload
    have hloaded : ∃ x ∈ ls ++ rest, (created tpm2CcLoad x).isSome := by
      have hmem : object ∈ ls.filterMap (created tpm2CcLoad) := by
        rw [hcreated]
        exact List.mem_singleton_self _
      obtain ⟨x, hx, hsome⟩ := List.mem_filterMap.1 hmem
      exact ⟨x, List.mem_append_left rest hx, by rw [hsome]; rfl⟩
    rw [List.filterMap_append, List.filterMap_append, createdAny_load hload, hcreated,
      flushed_nil commandCode_load (by decide) hload, List.nil_append, List.singleton_append,
      unsealLoaded_ends h, List.forall_mem_append]
    exact ⟨fun hrest _ => ⟨(accepted_load hload).2 rfl, hrest⟩, fun hall => (hall hloaded).2⟩
  · rw [createdAny_load hload, flushed_nil commandCode_load (by decide) hload]
    constructor
    · rintro hsub ⟨x, hx, hsome⟩
      have hnil : zs.filterMap (created tpm2CcLoad) = [] :=
        List.length_eq_zero_iff.1 (Nat.le_zero.1 hsub.length_le)
      rw [List.filterMap_eq_nil_iff.1 hnil x hx] at hsome
      cases hsome
    · intro hall
      have hnone : ∀ x ∈ zs, created tpm2CcLoad x = none := by
        intro x hx
        by_contra hsome
        cases (accepted_load hload).1 (hall ⟨x, hx, Option.isSome_iff_ne_none.2 hsome⟩)
      rw [List.filterMap_eq_nil_iff.2 hnone]

/-- A call that has nothing to do with commands. -/
structure Neutral (x : Exchange) : Prop where
  created : ∀ code, created code x = none
  flushed : flushed x = none
  accepted : Accepted x

theorem settled_cons {x : Exchange} (hx : Neutral x) (h : Settled xs) : Settled (x :: xs) := by
  have hany : createdAny x = none := by
    unfold createdAny
    rw [hx.created, hx.created]
    rfl
  unfold Settled at h ⊢
  rw [List.filterMap_cons_none hany, List.filterMap_cons_none hx.flushed, h]
  simp [hx.created, hx.accepted]

theorem settled_concat {x : Exchange} (hx : Neutral x) (h : Settled xs) : Settled (xs ++ [x]) := by
  have hany : createdAny x = none := by
    unfold createdAny
    rw [hx.created, hx.created]
    rfl
  have hcreated : (xs ++ [x]).filterMap createdAny = xs.filterMap createdAny := by
    simp [hany]
  have hflushed : (xs ++ [x]).filterMap flushed = xs.filterMap flushed := by
    simp [hx.flushed]
  unfold Settled at h ⊢
  rw [hcreated, hflushed, h]
  simp [or_imp, forall_and, hx.created, hx.accepted]

theorem neutral_readFile {path : String} {o : Reply} : Neutral (.readFile path, o) :=
  ⟨fun _ => rfl, rfl, trivial⟩

theorem neutral_openDevice {path : String} {o : Reply} : Neutral (.openDevice path, o) :=
  ⟨fun _ => rfl, rfl, trivial⟩

theorem neutral_close {o : Reply} : Neutral (.close, o) := ⟨fun _ => rfl, rfl, trivial⟩

theorem openTpmDevice_ends {q : Except Stop Unit} (hrun : openTpmDevice.Ends xs q)
    {ys : List Exchange} (hys : Settled ys) : Settled (xs ++ ys) := by
  obtain ⟨managed, rest, rfl, h⟩ := ends_call hrun
  refine settled_cons neutral_openDevice ?_
  split at h
  · rw [(ends_ret h).1]
    exact hys
  · obtain ⟨raw, rest', rfl, hraw⟩ := ends_call h
    refine settled_cons neutral_openDevice ?_
    split at hraw <;>
    · rw [(ends_ret hraw).1]
      exact hys

theorem readParentHandle_ends {q : Except Stop UInt32} (hrun : readParentHandle.Ends xs q)
    {ys : List Exchange} (hys : Settled ys) : Settled (xs ++ ys) := by
  obtain ⟨o, rest, rfl, h⟩ := ends_call hrun
  rw [(ends_ret h).1]
  exact settled_cons neutral_readFile hys

theorem unsealLuksKey_ends (hrun : unsealLuksKey.Ends xs r) : Settled xs := by
  obtain ⟨file, rest, rfl, h⟩ := ends_call hrun
  refine settled_cons neutral_readFile ?_
  split at h
  · rw [(ends_ret h).1]
    exact settled_nil
  split at h
  · rw [(ends_ret h).1]
    exact settled_nil
  obtain ⟨ps, zs, parent, rfl, hparent, hopened⟩ | ⟨e, hparent, -⟩ := ends_check_error h
  swap
  · have hsettled := readParentHandle_ends hparent settled_nil
    rw [List.append_nil] at hsettled
    exact hsettled
  refine readParentHandle_ends hparent ?_
  obtain ⟨os, ws, _, rfl, hopen, hwith⟩ | ⟨e, hopen, -⟩ := ends_check_error hopened
  swap
  · have hsettled := openTpmDevice_ends hopen settled_nil
    rw [List.append_nil] at hsettled
    exact hsettled
  refine openTpmDevice_ends hopen ?_
  obtain ⟨us, cs, key, rfl, hunseal, hclose⟩ := ends_bind hwith
  obtain ⟨c, rest, rfl, hend⟩ := ends_call hclose
  rw [(ends_ret hend).1]
  exact settled_concat neutral_close (unsealWith_ends hunseal)

/-- In every run all of the handles are flushed just when nothing goes wrong once the sealed object is
in the TPM. -/
theorem noLeak_iff {log : List Exchange} (h : unsealLuksKey.Ends log r) :
    NoLeak log ↔ Undisturbed log :=
  forall_congr' fun _ => unsealLuksKey_ends h

end Run

/-- The registers are not what the key was sealed to, and the unseal is refused. -/
def mismatch : List Reply :=
  [{ data := enrollmentBlob [1, 2] [3, 4] }, { data := [0x81, 0, 0, 1] },
    { result := .error "No such file or directory" }, {}, { count := 35 },
    { data := [0x80, 2, 0, 0, 0, 18, 0, 0, 0, 0, 0x80, 0, 0, 0, 0, 0, 0, 0] }, { count := 27 },
    { data := [0x80, 1, 0, 0, 0, 16, 0, 0, 0, 0, 0x03, 0, 0, 0, 0, 0] },
    { result := .error "No such file or directory" }, { count := 26 },
    { data := [0x80, 1, 0, 0, 0, 10, 0, 0, 0, 0] }, { count := 27 },
    { data := [0x80, 1, 0, 0, 0, 10, 0, 0, 9, 0x9D] }, {}]

def mismatchLog : List Exchange := ((unsealLuksKey.play mismatch).map Prod.fst).getD []

theorem ends_mismatchLog :
    unsealLuksKey.Ends mismatchLog (fail ("TPM2 command failed: RC=0x" ++ hex8 0x99D)) := by
  have hplay : unsealLuksKey.play mismatch =
      some (mismatchLog, fail ("TPM2 command failed: RC=0x" ++ hex8 0x99D)) := by
    rfl
  exact ends_of_play hplay

/-- The object and the session are left in the TPM. -/
theorem mismatch_leaks : ¬∀ (log : List Exchange) (r : Except Stop (List UInt8)),
    unsealLuksKey.Ends log r → NoLeak log := by
  intro h
  have hraw : OnRawDevice mismatchLog :=
    ⟨(.openDevice "/dev/tpm0", {}), List.mem_of_getElem? (rfl : mismatchLog[3]? = some _), rfl, rfl⟩
  have hlen := (h _ _ ends_mismatchLog hraw).length_le
  exact absurd hlen (by decide)

/-- The registers are what the key was sealed to. -/
def unsealed : List Reply :=
  mismatch.take 12 ++ ([{ data := [0x80, 2, 0, 0, 0, 18, 0, 0, 0, 0, 0, 0, 0, 4, 0, 2, 7, 9] },
    { count := 14 }, { data := [0x80, 1, 0, 0, 0, 10, 0, 0, 0, 0] },
    { count := 14 }, { data := [0x80, 1, 0, 0, 0, 10, 0, 0, 0, 0] }, {}] : List Reply)

def unsealedLog : List Exchange := ((unsealLuksKey.play unsealed).map Prod.fst).getD []

theorem noLeak_unsealedLog : unsealLuksKey.Ends unsealedLog (.ok [7, 9]) ∧ NoLeak unsealedLog := by
  have hplay : unsealLuksKey.play unsealed = some (unsealedLog, .ok [7, 9]) := rfl
  have hends := ends_of_play hplay
  exact ⟨hends, (noLeak_iff hends).2 fun _ _ => by decide +kernel⟩

end Quantra.Tpm2
