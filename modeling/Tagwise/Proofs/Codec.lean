import Tagwise.Core.Account
import Tagwise.Program.Sample
import Tagwise.Proofs.Parity

namespace Tagwise.Proofs.Codec
open Js Tagwise.Core

/-- Where the client's offsets find the program's fields. -/
structure Layout (data : List UInt8) (account : Program.TagAccount) : Prop where
  size : data.length = tagAccountSize
  discriminator : subarray data 0 discriminatorLength = tagAccountDiscriminator
  owner : subarray data ownerOffset (ownerOffset + pubkeyLength) = account.owner.data
  wallet : subarray data walletOffset (walletOffset + pubkeyLength) = account.wallet.data
  tag : subarray data tagOffset tagLenOffset = account.tag.data
  tagLen : data[tagLenOffset]? = some account.tagLen
  bump : data[bumpOffset]? = some account.bump

theorem subarray_mid (front : List UInt8) {back : List UInt8} {first last : Nat} (mid : List UInt8)
    (hf : front.length = first) (hm : first + mid.length = last) :
    subarray (front ++ (mid ++ back)) first last = mid := by
  subst hm hf
  rw [subarray, ← List.append_assoc, List.take_left' (by simp), List.drop_left' rfl]

theorem take_subarray (data : List UInt8) (first last : Nat) (h : first ≤ last) :
    data.take first ++ subarray data first last = data.take last := by
  calc data.take first ++ subarray data first last
      = (data.take last).take first ++ (data.take last).drop first := by
        rw [List.take_take, Nat.min_eq_left h, subarray]
    _ = data.take last := List.take_append_drop _ _

theorem take_byte {data : List UInt8} {i : Nat} {b : UInt8} (h : data[i]? = some b) :
    data.take i ++ [b] = data.take (i + 1) := by
  rw [List.take_add_one, h, Option.toList_some]

theorem layout_serialize (account : Program.TagAccount) :
    Layout account.serialize account := by
  have ho := account.owner.size
  have hw := account.wallet.size
  have ht : account.tag.data.length = 20 := account.tag.size
  have hd : Program.TagAccount.discriminator.length = 8 := rfl
  unfold Program.TagAccount.serialize
  refine ⟨?_, ?_, ?_, ?_, ?_, ?_, ?_⟩
  · simp only [List.length_append, ho, hw, ht, hd, List.length_singleton]
    decide
  · simp only [List.append_assoc]
    exact subarray_mid [] Program.TagAccount.discriminator rfl rfl
  · simp only [List.append_assoc]
    exact subarray_mid _ account.owner.data hd (by rw [ho]; rfl)
  · rw [List.append_assoc, List.append_assoc, List.append_assoc]
    exact subarray_mid _ account.wallet.data (by simp [hd, ho]; rfl) (by rw [hw]; rfl)
  · rw [List.append_assoc, List.append_assoc]
    exact subarray_mid _ account.tag.data (by simp [hd, ho, hw]; rfl) (by rw [ht]; rfl)
  · have hl : (Program.TagAccount.discriminator ++ account.owner.data ++ account.wallet.data ++
        account.tag.data).length = tagLenOffset := by simp [hd, ho, hw, ht]; rfl
    rw [List.append_assoc, List.getElem?_append_right (Nat.le_of_eq hl), hl, Nat.sub_self]
    rfl
  · have hl : (Program.TagAccount.discriminator ++ account.owner.data ++ account.wallet.data ++
        account.tag.data ++ [account.tagLen]).length = bumpOffset := by simp [hd, ho, hw, ht]; rfl
    rw [List.getElem?_append_right (Nat.le_of_eq hl), hl, Nat.sub_self]
    rfl

/-- The offsets leave no byte out. -/
theorem layout_unique {data : List UInt8} {account : Program.TagAccount}
    (h : Layout data account) : account.serialize = data := by
  have h0 : data.take discriminatorLength = tagAccountDiscriminator := h.discriminator
  have h1 := take_subarray data discriminatorLength (ownerOffset + pubkeyLength) (by decide)
  have h2 := take_subarray data walletOffset (walletOffset + pubkeyLength) (by decide)
  have h3 := take_subarray data tagOffset tagLenOffset (by decide)
  have h4 := take_byte h.tagLen
  have h5 := take_byte h.bump
  have ho := h.owner
  have hw := h.wallet
  change subarray data discriminatorLength (ownerOffset + pubkeyLength) = _ at ho
  rw [h0, ho] at h1
  change _ = data.take walletOffset at h1
  rw [← h1, hw] at h2
  change _ = data.take tagOffset at h2
  rw [← h2, h.tag] at h3
  rw [← h3] at h4
  change _ = data.take bumpOffset at h4
  rw [← h4] at h5
  change _ = data.take tagAccountSize at h5
  rw [List.take_of_length_le (Nat.le_of_eq h.size)] at h5
  exact h5

theorem layout_iff {data : List UInt8} {account : Program.TagAccount} :
    Layout data account ↔ account.serialize = data := by
  constructor
  · exact layout_unique
  · rintro rfl
    exact layout_serialize account

theorem readByte_some {data : List UInt8} {i : Nat} {b : UInt8} :
    readByte data i = .ok b ↔ data[i]? = some b := by
  unfold readByte
  cases data[i]? with
  | none => simp
  | some c => simp

/-- One turn of both byte loops stays inside a buffer it was bounded by. -/
theorem drop_cons {buffer : List UInt8} {s n : Nat} (h : s + (n + 1) ≤ buffer.length) :
    ∃ b, readByte buffer s = .ok b ∧
      (buffer.drop s).take (n + 1) = b :: (buffer.drop (s + 1)).take n := by
  have hs : s < buffer.length := by omega
  refine ⟨buffer[s],readByte_some.mpr (List.getElem?_eq_getElem hs),?_⟩
  rw [List.drop_eq_getElem_cons hs, List.take_succ_cons]

theorem checkPadding_ok {buffer : List UInt8} (tagLen : Nat) {s n : Nat}
    (h : s + n ≤ buffer.length) :
    checkPadding buffer tagLen (List.range' s n) = .ok () ↔ ∀ b ∈ (buffer.drop s).take n, b = 0 := by
  induction n generalizing s with
  | zero => simp [checkPadding]
  | succ n ih =>
    obtain ⟨b,hb,ht⟩ := drop_cons h
    rw [List.range'_succ, checkPadding, hb, ht]
    by_cases hz : b = 0
    · simp [hz, ih (s := s + 1) (by omega)]
    · simp [hz]

theorem readTag_ok {buffer : List UInt8} {s n : Nat} (raw : JsString) (h : s + n ≤ buffer.length) :
    readTag buffer raw (List.range' s n) =
      .ok (raw ++ fromCharCodes ((buffer.drop s).take n)) := by
  induction n generalizing s raw with
  | zero => simp [readTag, fromCharCodes]
  | succ n ih =>
    obtain ⟨b,hb,ht⟩ := drop_cons h
    rw [List.range'_succ, readTag, hb, ht]
    simp only
    rw [ih _ (by omega), List.append_assoc]
    rfl

theorem padding_checked {buffer : List UInt8} (hl : buffer.length = maxTagLength) {tagLen : Nat}
    (ht : tagLen ≤ maxTagLength) :
    checkPadding buffer tagLen (List.range' tagLen (maxTagLength - tagLen)) = .ok () ↔
      ∀ b ∈ buffer.drop tagLen, b = 0 := by
  rw [checkPadding_ok tagLen (by omega), List.take_of_length_le]
  rw [List.length_drop, hl]

theorem tag_read {buffer : List UInt8} (hl : buffer.length = maxTagLength) {tagLen : Nat}
    (ht : tagLen ≤ maxTagLength) :
    readTag buffer [] (List.range tagLen) = .ok (fromCharCodes (buffer.take tagLen)) := by
  rw [List.range_eq_range', readTag_ok [] (by omega)]
  simp

/-- The account a decoded value speaks of. -/
structure Denotes (sol : Program.Solana) (account : Program.TagAccount) (decoded : TagAccount) :
    Prop where
  owner : decoded.owner = sol.base58 account.owner
  wallet : decoded.wallet = sol.base58 account.wallet
  stored : Program.StoresTag account (encodeUtf8 decoded.tag.text)
  bump : decoded.bump = account.bump

theorem stores_of_fields {account : Program.TagAccount} {t : NormalizedTag}
    (hl : account.tagLen.toNat ≤ maxTagLength)
    (hp : ∀ b ∈ account.tag.data.drop account.tagLen.toNat, b = 0)
    (ht : t.text = fromCharCodes (account.tag.data.take account.tagLen.toNat)) :
    Program.StoresTag account (encodeUtf8 t.text) := by
  have hb := Parity.encodeUtf8_normalized ht
  have hc := Parity.canonical_normalized t
  rw [hb] at hc ⊢
  exact Program.storesTag_slice hl hc hp

/-- What decodes is the encoding of the account the result speaks of. -/
theorem serialize_of_decode {sol : Program.Solana} {data : List UInt8} {decoded : TagAccount}
    (h : decodeTagAccount sol data = .ok decoded) :
    ∃ account : Program.TagAccount, account.serialize = data ∧ Denotes sol account decoded := by
  unfold decodeTagAccount at h
  split at h
  · cases h
  rename_i hl
  have hl : data.length = tagAccountSize := not_not.mp hl
  simp only at h
  split at h
  · cases h
  rename_i hdisc
  split at h
  · cases h
  · cases h
  rename_i tagLen bump hlen hbump
  split at h
  · cases h
  rename_i hle
  have hle : tagLen.toNat ≤ maxTagLength := Nat.le_of_not_lt hle
  have hbuf : (subarray data tagOffset tagLenOffset).length = maxTagLength := by
    rw [subarray, List.length_drop, List.length_take, hl]
    rfl
  split at h
  · cases h
  rename_i hpad
  rw [tag_read hbuf hle] at h
  simp only at h
  split at h
  · cases h
  rename_i t hn
  split at h
  · cases h
  rename_i ht
  cases h
  let account : Program.TagAccount := ⟨keyAt data ownerOffset (by rw [hl]; decide),
    keyAt data walletOffset (by rw [hl]; decide), ⟨_, hbuf⟩, tagLen, bump⟩
  have hlay : Layout data account :=
    ⟨hl,not_not.mp hdisc,rfl,rfl,rfl,readByte_some.mp hlen,readByte_some.mp hbump⟩
  exact ⟨account,layout_unique hlay,rfl,rfl,
    stores_of_fields hle ((padding_checked hbuf hle).mp hpad) (not_not.mp ht),rfl⟩

theorem decode_of_serialize (sol : Program.Solana) {account : Program.TagAccount}
    {bytes : List UInt8} (h : Program.StoresTag account bytes) :
    ∃ decoded, decodeTagAccount sol account.serialize = .ok decoded ∧
      Denotes sol account decoded ∧ decoded.tag.text = fromCharCodes bytes := by
  have hlay := layout_serialize account
  obtain ⟨t,hn,ht⟩ := Parity.normalizeTag_bytes h.canonical
  have hle : account.tagLen.toNat ≤ maxTagLength := h.length ▸ h.canonical.short
  have hstored : Program.StoresTag account (encodeUtf8 t.text) := by
    rwa [Parity.encodeUtf8_normalized ht]
  refine ⟨⟨sol.base58 account.owner, sol.base58 account.wallet, t, account.bump⟩, ?_,
    ⟨rfl,rfl,hstored,rfl⟩, ht⟩
  have hkey : ∀ (o : Nat) (ho) (key : Program.Pubkey),
      subarray account.serialize o (o + pubkeyLength) = key.data →
      keyAt account.serialize o ho = key := by
    rintro o ho ⟨data,size⟩ hd
    simp only [keyAt, hd]
  rw [decodeTagAccount, dif_neg (not_not.mpr hlay.size)]
  simp only [hlay.discriminator, ne_eq, not_true_eq_false, ↓reduceIte,
    readByte_some.mpr hlay.tagLen, readByte_some.mpr hlay.bump, hlay.tag,
    hkey _ _ _ hlay.owner, hkey _ _ _ hlay.wallet, Nat.not_lt.mpr hle,
    (padding_checked account.tag.size hle).mpr h.padding, tag_read account.tag.size hle, h.slice,
    hn, ht]

theorem decode_iff {sol : Program.Solana} {data : List UInt8} {decoded : TagAccount} :
    decodeTagAccount sol data = .ok decoded ↔
      ∃ account : Program.TagAccount, account.serialize = data ∧ Denotes sol account decoded := by
  constructor
  · exact serialize_of_decode
  · rintro ⟨account,rfl,hd⟩
    obtain ⟨decoded',hdec,hd',ht⟩ := decode_of_serialize sol hd.stored
    have htag : decoded'.tag = decoded.tag := by
      apply NormalizedTag.ext_text
      rw [ht, encodeUtf8_ascii decoded.tag.ascii]
      exact fromCharCodes_asciiBytes decoded.tag.ascii
    rw [hdec]
    obtain ⟨owner,wallet,t,bump⟩ := decoded
    obtain ⟨owner',wallet',t',bump'⟩ := decoded'
    obtain ⟨rfl,rfl,_,rfl⟩ := hd
    obtain ⟨rfl,rfl,_,rfl⟩ := hd'
    cases htag
    rfl

theorem serialize_injective {account account' : Program.TagAccount}
    (h : account.serialize = account'.serialize) : account = account' := by
  obtain ⟨_,_,ho,hw,ht,hl,hb⟩ := layout_serialize account
  obtain ⟨_,_,ho',hw',ht',hl',hb'⟩ := layout_iff.mpr h.symm
  obtain ⟨⟨_,_⟩,⟨_,_⟩,⟨_,_⟩,_,_⟩ := account
  obtain ⟨⟨_,_⟩,⟨_,_⟩,⟨_,_⟩,_,_⟩ := account'
  simp only at ho hw ht hl hb ho' hw' ht' hl' hb'
  cases ho.symm.trans ho'
  cases hw.symm.trans hw'
  cases ht.symm.trans ht'
  cases hl.symm.trans hl'
  cases hb.symm.trans hb'
  rfl

/-- With faithful address text a decoded value speaks of one account only. -/
theorem denotes_unique {sol : Program.Solana} (hbase : Function.Injective sol.base58)
    {account account' : Program.TagAccount} {decoded : TagAccount}
    (h : Denotes sol account decoded) (h' : Denotes sol account' decoded) : account = account' := by
  obtain ⟨owner,wallet,⟨tag,_⟩,tagLen,bump⟩ := account
  obtain ⟨owner',wallet',⟨tag',_⟩,tagLen',bump'⟩ := account'
  cases hbase (h.owner.symm.trans h'.owner)
  cases hbase (h.wallet.symm.trans h'.wallet)
  cases h.bump.symm.trans h'.bump
  cases h.stored.tagLen.trans h'.stored.tagLen.symm
  cases h.stored.buffer.trans h'.stored.buffer.symm
  rfl

/-- The decoder inverts the program's encoding, accepts nothing else, and has one
way to fail. The owner and wallet of a result are the base58 text of the keys. -/
theorem account_codec (sol : Program.Solana) (hbase : Function.Injective sol.base58) :
    (∀ (account : Program.TagAccount) (tag : String), Program.validateCanonicalTag tag = .ok () →
      Program.StoresTag account (Program.asBytes tag) →
      ∃ decoded, decodeTagAccount sol account.serialize = .ok decoded ∧
        decoded.owner = sol.base58 account.owner ∧ decoded.wallet = sol.base58 account.wallet ∧
        decoded.tag.text = utf16 tag ∧ decoded.bump = account.bump) ∧
    (∀ data decoded, decodeTagAccount sol data = .ok decoded →
      ∃ account : Program.TagAccount, account.serialize = data ∧ Denotes sol account decoded ∧
        ∀ account' : Program.TagAccount,
          account'.serialize = data ∨ Denotes sol account' decoded → account' = account) ∧
    ∀ data, (¬ ∃ (account : Program.TagAccount) (bytes : List UInt8),
        Program.StoresTag account bytes ∧ account.serialize = data) →
      ∃ error : TagAccountDecodeError, decodeTagAccount sol data = .error error := by
  refine ⟨?_, ?_, ?_⟩
  · intro account tag hv hs
    obtain ⟨decoded,hd,hden,ht⟩ := decode_of_serialize sol hs
    refine ⟨decoded,hd,hden.owner,hden.wallet,?_,hden.bump⟩
    have hu : encodeUtf8 (utf16 tag) = Program.asBytes tag := encodeUtf8_utf16 tag
    rw [ht, ← hu, ← Parity.canonical_units]
    rw [hu]
    exact (Program.validateCanonicalTag_ok tag).mp hv
  · intro data decoded h
    obtain ⟨account,hs,hd⟩ := serialize_of_decode h
    refine ⟨account,hs,hd,?_⟩
    rintro account' (hs' | hd')
    · exact serialize_injective (hs'.trans hs.symm)
    · exact denotes_unique hbase hd' hd
  · intro data hn
    cases h : decodeTagAccount sol data with
    | error e => exact ⟨e,rfl⟩
    | ok decoded =>
      obtain ⟨account,hs,hd⟩ := serialize_of_decode h
      exact absurd ⟨account,_,hd.stored,hs⟩ hn

theorem abc_stored : Program.StoresTag Program.abcAccount (Program.asBytes "abc") := by
  refine ⟨(Program.validateCanonicalTag_ok "abc").mp ?_, ?_, ?_⟩ <;> decide

theorem abc_decodes : ∃ decoded,
    decodeTagAccount Program.sampleSolana Program.abcAccount.serialize = .ok decoded ∧
    decoded.owner = Program.base58 Program.sampleOwner ∧
    decoded.wallet = Program.base58 Program.sampleOwner ∧
    decoded.tag.text = utf16 "abc" ∧ decoded.bump = 255 :=
  (account_codec Program.sampleSolana (fun _ _ => Program.base58_injective)).1
    Program.abcAccount "abc" (by decide) abc_stored

end Tagwise.Proofs.Codec
