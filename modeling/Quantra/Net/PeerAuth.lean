import Mathlib.Data.List.Destutter
import Quantra.Lib.Text

/-! `main.rs` of `quantra-netd`: who may use the socket of the daemon. -/
namespace Quantra.PeerAuth

open Text

def allowedUidsEnv : String := "QUANTRA_NETD_ALLOWED_UIDS"

/-- `Vec::dedup`. -/
def dedup (uids : List ℕ) : List ℕ := uids.destutter (· ≠ ·)

def uidOfToken (token : String) : Option ℕ :=
  let trimmed := trim token
  if trimmed = "" then none else parseU32 trimmed

def parseUidList (raw : String) : List ℕ :=
  dedup (((split ',' raw).filterMap uidOfToken).mergeSort (· ≤ ·))

/-- The value is that of the environment variable, if it is set. -/
def loadExtraAllowedUids (value : Option String) : List ℕ :=
  match value with
  | some raw => parseUidList raw
  | none => []

def peerUidIsAuthorized (peerUid daemonUid : ℕ) (extraAllowedUids : List ℕ) : Bool :=
  peerUid == 0 || peerUid == daemonUid || extraAllowedUids.contains peerUid

/-- The credentials of a peer, where they can be fetched. -/
structure Creds where
  uid : ℕ
  gid : ℕ
  deriving DecidableEq, Repr

def authorizePeer (value : Option String) (daemonUid : ℕ) (creds : Option Creds) :
    Except String Unit :=
  match creds with
  | none => .error "Failed to fetch Unix peer credentials"
  | some creds =>
    if peerUidIsAuthorized creds.uid daemonUid (loadExtraAllowedUids value) then .ok ()
    else .error ("peer uid " ++ toString creds.uid ++ " gid " ++ toString creds.gid ++
      " is not authorized (daemon uid " ++ toString daemonUid ++ ", extra allowed via " ++
      allowedUidsEnv ++ "='" ++ value.getD "" ++ "')")

/-- Uids with commas between them. -/
def render (uids : List ℕ) : List Char :=
  [','].intercalate (uids.map (Nat.toDigits 10))

theorem mem_dedup {uid : ℕ} (uids : List ℕ) : uid ∈ dedup uids ↔ uid ∈ uids := by
  have hcons (a : ℕ) (as : List ℕ) : uid ∈ as.destutter' (· ≠ ·) a ↔ uid ∈ a :: as := by
    induction as generalizing a with
    | nil => exact Iff.rfl
    | cons b as ih =>
      by_cases hab : a ≠ b
      · rw [List.destutter'_cons_pos _ hab, List.mem_cons, ih, List.mem_cons (a := uid) (b := a)]
      · rw [List.destutter'_cons_neg _ hab, ih, not_not.1 hab]
        simp
  cases uids with
  | nil => exact Iff.rfl
  | cons a as => exact hcons a as

theorem pairwise_lt {uids : List ℕ} (hle : uids.Pairwise (· ≤ ·)) (hne : uids.IsChain (· ≠ ·)) :
    uids.Pairwise (· < ·) := by
  induction uids with
  | nil => exact List.Pairwise.nil
  | cons a uids ih =>
    cases uids with
    | nil => exact List.pairwise_singleton _ a
    | cons b uids =>
      obtain ⟨hfirst, hrest⟩ := List.pairwise_cons.1 hle
      obtain ⟨hab, hchain⟩ := List.isChain_cons_cons.1 hne
      have hlater := ih hrest hchain
      have hb : a < b := Nat.lt_of_le_of_ne (hfirst b List.mem_cons_self) hab
      refine List.pairwise_cons.2 ⟨?_, hlater⟩
      intro c hc
      rcases List.mem_cons.1 hc with rfl | hc
      · exact hb
      · exact Nat.lt_trans hb ((List.pairwise_cons.1 hlater).1 c hc)

/-- In ascending order, each uid once. -/
theorem pairwise_parseUidList (raw : String) : (parseUidList raw).Pairwise (· < ·) := by
  have hsorted : (((split ',' raw).filterMap uidOfToken).mergeSort (· ≤ ·)).Pairwise
      fun a b => decide (a ≤ b) := by
    refine List.pairwise_mergeSort (fun a b c hab hbc => ?_) (fun a b => ?_) _
    · rw [decide_eq_true_eq] at hab hbc ⊢
      exact Nat.le_trans hab hbc
    · rw [Bool.or_eq_true, decide_eq_true_eq, decide_eq_true_eq]
      exact Nat.le_total a b
  have hle : (parseUidList raw).Pairwise fun a b => decide (a ≤ b) :=
    hsorted.sublist (List.destutter_sublist _ _)
  have hne : (parseUidList raw).IsChain (· ≠ ·) := List.isChain_destutter _ _
  exact pairwise_lt (hle.imp of_decide_eq_true) hne

theorem uidOfToken_eq (token : String) : uidOfToken token = parseU32 (trim token) := by
  unfold uidOfToken
  dsimp only
  split
  · rename_i hempty
    rw [hempty]
    rfl
  · rfl

theorem mem_parseUidList {raw : String} {uid : ℕ} :
    uid ∈ parseUidList raw ↔ ∃ token ∈ split ',' raw, parseU32 (trim token) = some uid := by
  unfold parseUidList
  rw [mem_dedup, List.mem_mergeSort, List.mem_filterMap]
  simp only [uidOfToken_eq]

/-- A peer gets in exactly if it is root, the user of the daemon, or one whose uid stands between
the commas of the variable; what else stands there lets nobody in. -/
theorem authorizePeer_iff (value : Option String) (daemonUid : ℕ) (creds : Option Creds) :
    authorizePeer value daemonUid creds = .ok () ↔
      ∃ peer, creds = some peer ∧ (peer.uid = 0 ∨ peer.uid = daemonUid ∨
        ∃ raw, value = some raw ∧ ∃ token ∈ split ',' raw, parseU32 (trim token) = some peer.uid) := by
  cases creds with
  | none => exact iff_of_false nofun nofun
  | some peer =>
    have hextra : peer.uid ∈ loadExtraAllowedUids value ↔
        ∃ raw, value = some raw ∧ ∃ token ∈ split ',' raw, parseU32 (trim token) = some peer.uid := by
      cases value with
      | none => exact iff_of_false List.not_mem_nil nofun
      | some raw =>
        rw [loadExtraAllowedUids, mem_parseUidList]
        simp
    have hin : peerUidIsAuthorized peer.uid daemonUid (loadExtraAllowedUids value) = true ↔
        peer.uid = 0 ∨ peer.uid = daemonUid ∨ peer.uid ∈ loadExtraAllowedUids value := by
      unfold peerUidIsAuthorized
      rw [Bool.or_eq_true, Bool.or_eq_true, beq_iff_eq, beq_iff_eq, List.contains_iff_mem, or_assoc]
    have hok : authorizePeer value daemonUid (some peer) = .ok () ↔
        peerUidIsAuthorized peer.uid daemonUid (loadExtraAllowedUids value) = true := by
      unfold authorizePeer
      dsimp only
      split
      · rename_i hauthorized
        exact iff_of_true rfl hauthorized
      · rename_i hrefused
        exact iff_of_false nofun hrefused
    rw [hok, hin, hextra]
    constructor
    · exact fun h => ⟨peer, rfl, h⟩
    · rintro ⟨p, hp, h⟩
      cases hp
      exact h

/-- Uids that are written with commas between them are allowed, and no others; in whatever order
they are, and however often, they come to one list. -/
theorem parseUidList_render (uids : List ℕ) (h : ∀ uid ∈ uids, uid < 2 ^ 32) :
    (parseUidList (String.ofList (render uids))).Pairwise (· < ·) ∧
      ∀ uid, uid ∈ parseUidList (String.ofList (render uids)) ↔ uid ∈ uids := by
  refine ⟨pairwise_parseUidList _, fun uid => ?_⟩
  have htoken (n : ℕ) (hn : n < 2 ^ 32) :
      parseU32 (trim (String.ofList (Nat.toDigits 10 n))) = some n := by
    rw [trim_of_forall, parseU32_toDigits hn]
    intro c hc
    rw [String.toList_ofList] at hc
    exact isWhitespace_of_isDigit (Nat.isDigit_of_mem_toDigits (by decide) (by decide) hc)
  have hdigits : ∀ cs ∈ uids.map (Nat.toDigits 10), ',' ∉ cs := by
    intro cs hcs hcomma
    obtain ⟨n, -, rfl⟩ := List.mem_map.1 hcs
    have hdigit := Nat.isDigit_of_mem_toDigits (by decide) (by decide) hcomma
    exact absurd hdigit (by decide)
  rw [mem_parseUidList]
  cases huids : uids with
  | nil =>
    have hpieces : split ',' (String.ofList (render [])) = [""] := by decide
    have hnone : parseU32 (trim "") = none := by decide
    rw [hpieces]
    constructor
    · rintro ⟨token, htoken, hread⟩
      rw [List.mem_singleton.1 htoken, hnone] at hread
      cases hread
    · exact fun huid => absurd huid List.not_mem_nil
  | cons n ns =>
    have hne : uids.map (Nat.toDigits 10) ≠ [] := by
      rw [huids]
      exact List.cons_ne_nil _ _
    rw [← huids, split, String.toList_ofList, render, splitChars_intercalate hne hdigits]
    simp only [List.mem_map, exists_exists_and_eq_and]
    constructor
    · rintro ⟨m, hm, hread⟩
      rw [htoken m (h m hm)] at hread
      rwa [← Option.some.inj hread]
    · intro huid
      exact ⟨uid, huid, htoken uid (h uid huid)⟩

theorem parseUidList_render_staff :
    (parseUidList (String.ofList (render [1000, 42, 1000]))).Pairwise (· < ·) ∧
      ∀ uid, uid ∈ parseUidList (String.ofList (render [1000, 42, 1000])) ↔ uid ∈ [1000, 42, 1000] :=
  parseUidList_render [1000, 42, 1000] (by decide)

end Quantra.PeerAuth
