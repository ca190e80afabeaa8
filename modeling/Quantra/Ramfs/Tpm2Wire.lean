import Quantra.Ramfs.Tpm2

/-! The wire format of `tpm2.rs`: what the commands decode to, how the blob is read back, and that
nothing is read past its end. -/
namespace Quantra.Tpm2
open Bytes

section Bounds
variable {buf : List UInt8} {i j : ℕ}

theorem ok_bind {α β : Type} (a : α) (f : α → Except Stop β) : (Except.ok a >>= f) = f a := rfl

theorem index_of_lt (h : i < buf.length) : index buf i = .ok (buf.get ⟨i, h⟩) := by
  unfold index
  rw [List.getElem?_eq_getElem h]
  rfl

theorem range_of_le (hij : i ≤ j) (hj : j ≤ buf.length) :
    range buf i j = .ok ((buf.drop i).take (j - i)) := by
  unfold range
  rw [slice_eq hij hj]
  rfl

theorem u16At_of_lt (h : i + 1 < buf.length) : ∃ n, u16At buf i = .ok n := by
  unfold u16At
  rw [index_of_lt (Nat.lt_of_succ_lt h), index_of_lt h]
  exact ⟨_, rfl⟩

theorem u32At_of_lt (h : i + 3 < buf.length) : ∃ n, u32At buf i = .ok n := by
  unfold u32At
  rw [index_of_lt (by omega), index_of_lt (by omega), index_of_lt (by omega), index_of_lt h]
  exact ⟨_, rfl⟩

theorem fail_ne_panic {α : Type} (text : String) : (fail text : Except Stop α) ≠ .error .panic :=
  fun h => by cases h

theorem parseBlob_ne_panic (blob : List UInt8) : parseBlob blob ≠ .error .panic := by
  unfold parseBlob
  by_cases hshort : blob.length < 4
  · rw [if_pos hshort]
    exact fail_ne_panic _
  · rw [if_neg hshort]
    obtain ⟨pubSize, hpub⟩ := u16At_of_lt (show 0 + 1 < blob.length by omega)
    rw [hpub, ok_bind]
    dsimp only
    split
    · exact fail_ne_panic _
    · rename_i hlong
      obtain ⟨privSize, hpriv⟩ := u16At_of_lt (show 2 + pubSize.toNat + 1 < blob.length by omega)
      rw [range_of_le (by omega) (by omega), ok_bind, hpriv, ok_bind]
      split
      · exact fail_ne_panic _
      · rename_i hfits
        rw [range_of_le (by omega) (by omega)]
        exact fun h => by cases h

theorem handleOf_ne_panic {least : ℕ} (hleast : 14 ≤ least) (tooShort : String)
    (resp : List UInt8) : handleOf least tooShort resp ≠ .error .panic := by
  unfold handleOf
  split
  · exact fail_ne_panic _
  · obtain ⟨n, hn⟩ := u32At_of_lt (show 10 + 3 < resp.length by omega)
    rw [hn]
    exact fun h => by cases h

theorem unsealResponse_ne_panic (resp : List UInt8) : unsealResponse resp ≠ .error .panic := by
  unfold unsealResponse
  by_cases hshort : resp.length < 16
  · rw [if_pos hshort]
    exact fail_ne_panic _
  · obtain ⟨paramSize, hparam⟩ := u32At_of_lt (show 10 + 3 < resp.length by omega)
    obtain ⟨dataSize, hdata⟩ := u16At_of_lt (show 14 + 1 < resp.length by omega)
    rw [if_neg hshort, hparam, ok_bind]
    dsimp only
    rw [if_neg (by omega), hdata, ok_bind]
    split
    · exact fail_ne_panic _
    · rename_i hfits
      rw [range_of_le (by omega) (by omega)]
      exact fun h => by cases h

theorem checkResponse_ne_panic (r : Reply) : checkResponse r ≠ .error .panic := by
  have hnonneg : r.received.2 ≤ r.received.1.length := by
    unfold Reply.received
    split <;> dsimp only <;> omega
  unfold checkResponse
  dsimp only
  split
  · exact fail_ne_panic _
  · obtain ⟨rc, hrc⟩ := u32At_of_lt (show 6 + 3 < r.received.1.length by omega)
    rw [hrc, ok_bind]
    split
    · exact fail_ne_panic _
    · exact fun h => by cases h

end Bounds

/-! The round trip of the blob. -/

section Blob
variable (before mid rest : List UInt8)

theorem index_append (i : ℕ) : index (before ++ rest) (before.length + i) = index rest i := by
  unfold index
  rw [List.getElem?_append_right (Nat.le_add_right _ i), Nat.add_sub_cancel_left]

theorem u16At_append (n : UInt16) :
    u16At (before ++ (toBeBytes16 n ++ rest)) before.length = .ok n := by
  unfold u16At
  have hfirst := index_append before (toBeBytes16 n ++ rest) 0
  rw [Nat.add_zero] at hfirst
  rw [hfirst, index_append]
  exact congrArg Except.ok (fromBeBytes16_toBeBytes16 n)

theorem range_append :
    range (before ++ (mid ++ rest)) before.length (before.length + mid.length) = .ok mid := by
  rw [range_of_le (Nat.le_add_right _ _) (by simp), Nat.add_sub_cancel_left, List.drop_left,
    List.take_left]

/-- What the enrollment tool writes. -/
def enrollmentBlob (publicArea privateArea : List UInt8) : List UInt8 :=
  toBeBytes16 (UInt16.ofNat publicArea.length) ++ publicArea ++
    toBeBytes16 (UInt16.ofNat privateArea.length) ++ privateArea

theorem parseBlob_enrollmentBlob {publicArea privateArea : List UInt8}
    (hpublic : publicArea.length ≤ 65535) (hprivate : privateArea.length ≤ 65535) :
    parseBlob (enrollmentBlob publicArea privateArea) = .ok (publicArea, privateArea) := by
  have hpub : (UInt16.ofNat publicArea.length).toNat = publicArea.length :=
    UInt16.toNat_ofNat_of_lt' (Nat.lt_succ_of_le hpublic)
  have hpriv : (UInt16.ofNat privateArea.length).toNat = privateArea.length :=
    UInt16.toNat_ofNat_of_lt' (Nat.lt_succ_of_le hprivate)
  have hlen : (enrollmentBlob publicArea privateArea).length =
      2 + publicArea.length + 2 + privateArea.length := by
    simp [enrollmentBlob, Nat.add_assoc]
  have hsize : u16At (enrollmentBlob publicArea privateArea) 0 =
      .ok (UInt16.ofNat publicArea.length) := by
    have h := u16At_append [] (publicArea ++ (toBeBytes16 (UInt16.ofNat privateArea.length) ++
      privateArea)) (UInt16.ofNat publicArea.length)
    simpa [enrollmentBlob] using h
  have hpublicArea : range (enrollmentBlob publicArea privateArea) 2 (2 + publicArea.length) =
      .ok publicArea := by
    have h := range_append (toBeBytes16 (UInt16.ofNat publicArea.length)) publicArea
      (toBeBytes16 (UInt16.ofNat privateArea.length) ++ privateArea)
    simpa [enrollmentBlob] using h
  have hsize' : u16At (enrollmentBlob publicArea privateArea) (2 + publicArea.length) =
      .ok (UInt16.ofNat privateArea.length) := by
    have h := u16At_append (toBeBytes16 (UInt16.ofNat publicArea.length) ++ publicArea) privateArea
      (UInt16.ofNat privateArea.length)
    rw [List.length_append, length_toBeBytes16] at h
    simpa [enrollmentBlob] using h
  have hprivateArea : range (enrollmentBlob publicArea privateArea) (2 + publicArea.length + 2)
      (2 + publicArea.length + 2 + privateArea.length) = .ok privateArea := by
    have h := range_append (toBeBytes16 (UInt16.ofNat publicArea.length) ++ publicArea ++
      toBeBytes16 (UInt16.ofNat privateArea.length)) privateArea []
    rw [List.length_append, List.length_append, length_toBeBytes16, length_toBeBytes16] at h
    simpa [enrollmentBlob] using h
  unfold parseBlob
  rw [if_neg (by omega), hsize, ok_bind, hpub]
  dsimp only
  rw [if_neg (by omega), hpublicArea, ok_bind, hsize', ok_bind, hpriv, if_neg (by omega),
    hprivateArea]
  rfl

end Blob

/-! The commands by the grammar. -/

section Wire
open TpmCommand

def passwordAuth (handle : UInt32) : AuthCommand where
  handle
  nonce := []
  attributes := 0
  hmac := []

theorem length_emptyAuth (handle : UInt32) : (emptyAuth handle).length = 9 := rfl

theorem authCommand_emptyAuth (handle : UInt32) :
    authCommand (emptyAuth handle) = some (passwordAuth handle, []) := by
  have hlayout : emptyAuth handle = toBeBytes handle ++ (toBeBytes16 0 ++ (0 :: (toBeBytes16 0 ++
      []))) := by
    simp [emptyAuth]
  unfold authCommand
  rw [hlayout, u32_append]
  simp only [Option.bind_eq_bind, Option.bind_some, sized_nil, u8_cons]
  rfl

theorem authArea_emptyAuth (handle : UInt32) (rest : List UInt8) :
    authArea stSessions (toBeBytes (UInt32.ofNat (emptyAuth handle).length) ++
      (emptyAuth handle ++ rest)) = some ([passwordAuth handle], rest) :=
  authArea_append (by rw [length_emptyAuth]; decide) (authCommand_emptyAuth handle) rest

theorem toNat_size {n : ℕ} (h : n < 2 ^ 32) : (UInt32.ofNat n).toNat = n :=
  UInt32.toNat_ofNat_of_lt' h

theorem load_encodes (parent : UInt32) {publicArea privateArea : List UInt8}
    (hpublic : publicArea.length ≤ 65535) (hprivate : privateArea.length ≤ 65535) :
    Encodes (loadCommand parent publicArea privateArea)
      { handles := [parent], auths := [passwordAuth tpm2RsPw]
        params := .load privateArea publicArea } := by
  have hlayout : loadCommand parent publicArea privateArea =
      toBeBytes16 stSessions ++
        (toBeBytes (UInt32.ofNat (10 + (4 + 4 + (emptyAuth tpm2RsPw).length + 2 +
          privateArea.length + 2 + publicArea.length))) ++
        (toBeBytes ccLoad ++ (toBeBytes parent ++
        (toBeBytes (UInt32.ofNat (emptyAuth tpm2RsPw).length) ++ (emptyAuth tpm2RsPw ++
        (toBeBytes16 (UInt16.ofNat privateArea.length) ++ (privateArea ++
        (toBeBytes16 (UInt16.ofNat publicArea.length) ++ (publicArea ++ []))))))))) := by
    simp only [loadCommand, List.append_assoc, List.append_nil]
    rfl
  rw [hlayout]
  refine encodes_of_layout ?_ rfl (times_one (u32_append parent _)) (authArea_emptyAuth _ _) ?_ le_rfl
  · rw [toNat_size (by rw [length_emptyAuth]; omega)]
    simp only [List.length_append, length_toBeBytes, length_toBeBytes16, List.length_nil]
    omega
  · unfold params
    rw [if_pos rfl, sized_append (Nat.lt_succ_of_le hprivate)]
    simp only [Option.bind_eq_bind, Option.bind_some, sized_append (Nat.lt_succ_of_le hpublic)]

theorem startAuthSession_encodes : Encodes startAuthSessionCommand
    { handles := [tpm2RhNull, tpm2RhNull], auths := []
      params := .startAuthSession [] [] tpm2SePolicy .null tpm2AlgSha256 } :=
  ⟨⟨{ tag := stNoSessions, size := 27, code := ccStartAuthSession }, _, rfl, rfl⟩, by decide⟩

theorem flushContext_encodes (handle : UInt32) : Encodes (flushContextCommand handle)
    { handles := [], auths := [], params := .flushContext handle } := by
  have hlayout : flushContextCommand handle =
      toBeBytes16 stNoSessions ++ (toBeBytes 14 ++ (toBeBytes ccFlushContext ++
        (toBeBytes handle ++ []))) := by
    simp only [flushContextCommand, List.append_assoc, List.append_nil]
    rfl
  rw [hlayout]
  refine encodes_of_layout (by simp) rfl rfl rfl ?_ (Nat.zero_le _)
  unfold params
  rw [u32_append]
  rfl

theorem unseal_encodes (object session : UInt32) : Encodes (unsealCommand object session)
    { handles := [object], auths := [passwordAuth session], params := .unseal } := by
  have hlayout : unsealCommand object session =
      toBeBytes16 stSessions ++ (toBeBytes 27 ++ (toBeBytes ccUnseal ++ (toBeBytes object ++
        (toBeBytes (UInt32.ofNat (emptyAuth session).length) ++ (emptyAuth session ++ []))))) := by
    simp only [unsealCommand, List.append_assoc, List.append_nil]
    rfl
  rw [hlayout]
  exact encodes_of_layout (by simp [length_emptyAuth]) rfl (times_one (u32_append object _))
    (authArea_emptyAuth _ _) rfl le_rfl

theorem extendPcr_encodes (pcrIndex : UInt32) (digest : Vector UInt8 32) :
    Encodes (extendPcrCommand pcrIndex digest)
      { handles := [pcrIndex], auths := [passwordAuth tpm2RsPw]
        params := .pcrExtend [(tpm2AlgSha256, digest.toList)] } := by
  have hlayout : extendPcrCommand pcrIndex digest =
      toBeBytes16 stSessions ++ (toBeBytes 65 ++ (toBeBytes ccPcrExtend ++ (toBeBytes pcrIndex ++
        (toBeBytes (UInt32.ofNat (emptyAuth tpm2RsPw).length) ++ (emptyAuth tpm2RsPw ++
          (toBeBytes 1 ++ (toBeBytes16 tpm2AlgSha256 ++ (digest.toList ++ [])))))))) := by
    simp [extendPcrCommand, length_emptyAuth]
    rfl
  rw [hlayout]
  refine encodes_of_layout (by simp [length_emptyAuth]) rfl (times_one (u32_append pcrIndex _))
    (authArea_emptyAuth _ _) ?_ le_rfl
  have hdigest : TpmCommand.digest (toBeBytes16 tpm2AlgSha256 ++ (digest.toList ++ [])) =
      some ((tpm2AlgSha256, digest.toList), []) := by
    unfold TpmCommand.digest
    rw [u16_append]
    have hsize : digestSize tpm2AlgSha256 = some 32 := rfl
    simp only [Option.bind_eq_bind, Option.bind_some, hsize, octets_append digest.length_toList]
  unfold params
  simp only [counted_one hdigest]
  rfl

/-- The selection of a mask. -/
def maskSelection (mask : UInt32) : PcrSelection where
  hash := tpm2AlgSha256
  select := [(mask &&& 0xFF).toUInt8, ((mask >>> 8) &&& 0xFF).toUInt8,
    ((mask >>> 16) &&& 0xFF).toUInt8]

theorem policyPcr_encodes (session mask : UInt32) : Encodes (policyPcrCommand session mask)
    { handles := [session], auths := [], params := .policyPcr [] [maskSelection mask] } := by
  have hlayout : policyPcrCommand session mask =
      toBeBytes16 stNoSessions ++ (toBeBytes 26 ++ (toBeBytes ccPolicyPcr ++ (toBeBytes session ++
        (toBeBytes16 0 ++ (toBeBytes 1 ++ (toBeBytes16 tpm2AlgSha256 ++
          (3 :: ((maskSelection mask).select ++ [])))))))) := by
    simp [policyPcrCommand, buildPcrSelection, maskSelection]
    rfl
  have hpcrs : pcrSelection (toBeBytes16 tpm2AlgSha256 ++
      (3 :: ((maskSelection mask).select ++ []))) = some (maskSelection mask, []) := by
    unfold pcrSelection
    rw [u16_append]
    simp only [Option.bind_eq_bind, Option.bind_some, u8_cons]
    rfl
  rw [hlayout]
  refine encodes_of_layout (by simp [maskSelection]) rfl (times_one (u32_append session _)) rfl ?_
    (Nat.zero_le _)
  unfold params
  simp only [sized_nil, Option.bind_eq_bind, Option.bind_some, counted_one hpcrs]
  rfl

theorem testBit_byte (mask : UInt32) {j : ℕ} (hj : j < 8) :
    (mask &&& 0xFF).toUInt8.toNat.testBit j = mask.toNat.testBit j := by
  have hones : (255 : ℕ).testBit j = true := by
    have h := Nat.testBit_two_pow_sub_one 8 j
    rw [decide_eq_true hj] at h
    exact h
  have hbyte : (mask &&& 0xFF).toUInt8.toNat = (mask.toNat &&& 255) % 2 ^ 8 := by
    rw [UInt32.toNat_toUInt8, UInt32.toNat_and]
    rfl
  rw [hbyte, Nat.testBit_mod_two_pow, decide_eq_true hj, Bool.true_and, Nat.testBit_and, hones,
    Bool.and_true]

/-- The first 24 registers of the mask are selected, and none beyond. -/
theorem selects_maskSelection (mask : UInt32) (pcr : ℕ) :
    (maskSelection mask).selects pcr = true ↔ pcr < 24 ∧ mask.toNat.testBit pcr = true := by
  have hj : pcr % 8 < 8 := Nat.mod_lt _ (by decide)
  unfold PcrSelection.selects maskSelection
  rcases (by omega : pcr / 8 = 0 ∨ pcr / 8 = 1 ∨ pcr / 8 = 2 ∨ 3 ≤ pcr / 8) with h | h | h | h
  · have hpcr : pcr % 8 = pcr := by omega
    rw [h, hpcr]
    simp only [List.getElem?_cons_zero, Option.any_some, testBit_byte mask (hpcr ▸ hj)]
    exact ⟨fun hbit => ⟨by omega, hbit⟩, fun hbit => hbit.2⟩
  · have hpcr : 8 + pcr % 8 = pcr := by omega
    have hshift : (mask >>> 8).toNat = mask.toNat >>> 8 := UInt32.toNat_shiftRight mask 8
    rw [h]
    simp only [List.getElem?_cons_succ, List.getElem?_cons_zero, Option.any_some, testBit_byte _ hj,
      hshift, Nat.testBit_shiftRight, hpcr]
    exact ⟨fun hbit => ⟨by omega, hbit⟩, fun hbit => hbit.2⟩
  · have hpcr : 16 + pcr % 8 = pcr := by omega
    have hshift : (mask >>> 16).toNat = mask.toNat >>> 16 := UInt32.toNat_shiftRight mask 16
    rw [h]
    simp only [List.getElem?_cons_succ, List.getElem?_cons_zero, Option.any_some, testBit_byte _ hj,
      hshift, Nat.testBit_shiftRight, hpcr]
    exact ⟨fun hbit => ⟨by omega, hbit⟩, fun hbit => hbit.2⟩
  · have hnone : ∀ a b c : UInt8, [a, b, c][pcr / 8]? = none := by
      intro a b c
      exact List.getElem?_eq_none h
    rw [hnone, Option.any_none]
    exact ⟨fun hbit => absurd hbit Bool.false_ne_true, fun hbit => by omega⟩

/-- The command for a mask, as it is decoded, where the selection is of the registers in `pcrs`. -/
def SelectsPcrs (session mask : UInt32) (pcrs : ℕ → Prop) : Prop :=
  ∃ selection, selection.hash = tpm2AlgSha256 ∧
    Encodes (policyPcrCommand session mask)
      { handles := [session], auths := [], params := .policyPcr [] [selection] } ∧
    ∀ pcr, selection.selects pcr = true ↔ pcrs pcr

/-- What is sent decodes to what it was made of, of the mask as much as there are registers, the blob
is read back, and no bytes are read past their end. -/
theorem wire_format (parent object session mask pcrIndex : UInt32)
    (publicArea privateArea : List UInt8) (hpublic : publicArea.length ≤ 65535)
    (hprivate : privateArea.length ≤ 65535) (digest : Vector UInt8 32) (bytes : List UInt8) :
    Encodes (loadCommand parent publicArea privateArea)
        { handles := [parent], auths := [passwordAuth tpm2RsPw]
          params := .load privateArea publicArea } ∧
      Encodes startAuthSessionCommand
        { handles := [tpm2RhNull, tpm2RhNull], auths := []
          params := .startAuthSession [] [] tpm2SePolicy .null tpm2AlgSha256 } ∧
      SelectsPcrs session mask (fun pcr => pcr < 24 ∧ mask.toNat.testBit pcr) ∧
      Encodes (unsealCommand object session)
        { handles := [object], auths := [passwordAuth session], params := .unseal } ∧
      Encodes (flushContextCommand session)
        { handles := [], auths := [], params := .flushContext session } ∧
      Encodes (extendPcrCommand pcrIndex digest)
        { handles := [pcrIndex], auths := [passwordAuth tpm2RsPw]
          params := .pcrExtend [(tpm2AlgSha256, digest.toList)] } ∧
      parseBlob (enrollmentBlob publicArea privateArea) = .ok (publicArea, privateArea) ∧
      parseBlob bytes ≠ .error .panic ∧ loadResponse bytes ≠ .error .panic ∧
      unsealResponse bytes ≠ .error .panic := by
  refine ⟨load_encodes parent hpublic hprivate, startAuthSession_encodes, ?_,
    unseal_encodes object session, flushContext_encodes session, extendPcr_encodes pcrIndex digest,
    parseBlob_enrollmentBlob hpublic hprivate, parseBlob_ne_panic bytes,
    handleOf_ne_panic (by decide) _ bytes, unsealResponse_ne_panic bytes⟩
  exact ⟨maskSelection mask, rfl, policyPcr_encodes session mask, selects_maskSelection mask⟩

theorem wire_format_short : parseBlob (enrollmentBlob [1, 2] [3]) = .ok ([1, 2], [3]) :=
  (wire_format 0x81000001 0x80000000 0x03000000 defaultPcrMask 8 [1, 2] [3] (by decide) (by decide)
    (Vector.replicate 32 0) []).2.2.2.2.2.2.1

/-- A register beyond the 24 is not in the command. -/
theorem mask_has_24_registers : ¬∀ session mask : UInt32,
    SelectsPcrs session mask fun pcr => mask.toNat.testBit pcr := by
  intro h
  obtain ⟨selection, -, hencodes, hselects⟩ := h 0 0x1000000
  have hdecoded := hencodes.decoded.symm.trans (policyPcr_encodes 0 0x1000000).decoded
  have hselection : selection = maskSelection 0x1000000 := by
    simpa using hdecoded
  have hbit := (hselects 24).2 (by decide)
  rw [hselection] at hbit
  have hlt := ((selects_maskSelection 0x1000000 24).1 hbit).1
  omega

end Wire

end Quantra.Tpm2
