import Tagwise.Api.Tags
import Tagwise.Indexer.Pipeline
import Tagwise.Proofs.Codec
import Tagwise.Sdk.Chain

namespace Tagwise.Proofs.ChainReaders
open Js Tagwise.Core Services Lib

/-- The part of an answer that the chain knows. -/
structure Reading where
  tag : JsString
  owner : JsString
  wallet : JsString
  bump : Nat
  deriving DecidableEq

def sdkReading (dep : Deployment) (tag : NormalizedTag) (w : World) : Option Reading :=
  match (Sdk.resolveOnChainAccount dep.sol tag).run World.handle w with
  | some (_, .ok (some identity)) =>
    some ⟨identity.tag,identity.owner,identity.wallet,identity.bump⟩
  | _ => none

def apiReading (dep : Deployment) (tag : NormalizedTag) (w : World) : Option Reading :=
  match (Api.SolanaChainFallback.lookup dep tag).run World.handle w with
  | some (_, .ok (some identity)) =>
    some ⟨identity.tag,identity.owner,identity.wallet,identity.bump⟩
  | _ => none

def indexerReading (dep : Deployment) (o : Indexer.Observation) (w : World) : Option Reading :=
  match (Indexer.decodeAndVerify dep o).run World.handle w with
  | some (_, .ok (.ok change)) => some ⟨change.tag,change.owner,change.wallet,change.bump⟩
  | _ => none

def readingOf (decoded : TagAccount) : Reading :=
  ⟨decoded.tag,decoded.owner,decoded.wallet,decoded.bump.toNat⟩

/-- The three answer alike, and none of them with another tag. -/
structure Agree (dep : Deployment) (tag : NormalizedTag) (o : Indexer.Observation) (w : World) :
    Prop where
  sdk_api : sdkReading dep tag w = apiReading dep tag w
  api_indexer : apiReading dep tag w = indexerReading dep o w
  own : ∀ reading, sdkReading dep tag w = some reading → reading.tag = tag.text

/-- The bytes are no account that stores another tag. -/
def OfNoOtherTag (tag : NormalizedTag) (data : List UInt8) : Prop :=
  ∀ (account : Program.TagAccount) bytes, account.serialize = data →
    Program.StoresTag account bytes → bytes = asciiBytes tag.text

section
variable {dep : Deployment} {tag : NormalizedTag} {pda : JsString} {bump : UInt8}
  {data : List UInt8} {w : World}

theorem getAccountInfo_run {α : Type} (hu : w.rpcUp = true) (ha : w.accountInfo pda = some data)
    (f : Except Unit (Option (List UInt8)) → Async α) :
    (getAccountInfo pda >>= f).run World.handle w = (f (.ok (some data))).run World.handle w := by
  have hh : w.handle (.getAccountInfo pda) = some (w, .ok (some data)) := by
    rw [← ha]
    exact if_pos hu
  exact Prog.run_call hh

theorem sdkReading_eq (hp : deriveTagPda dep.sol tag = .ok (pda, bump)) (hu : w.rpcUp = true)
    (ha : w.accountInfo pda = some data) :
    sdkReading dep tag w = (decodeTagAccount dep.sol data).toOption.map readingOf := by
  simp only [sdkReading, Sdk.resolveOnChainAccount, hp]
  rw [getAccountInfo_run hu ha]
  simp only
  cases decodeTagAccount dep.sol data with
  | error e => rfl
  | ok decoded => rfl

theorem apiReading_eq (hp : deriveTagPda dep.sol tag = .ok (pda, bump)) (hu : w.rpcUp = true)
    (ha : w.accountInfo pda = some data) :
    apiReading dep tag w = (decodeTagAccount dep.sol data).toOption.map readingOf := by
  simp only [apiReading, Api.SolanaChainFallback.lookup, hp]
  rw [getAccountInfo_run hu ha]
  cases hd : decodeTagAccount dep.sol data with
  | error e => simp [Api.fromAccount, hd, Except.toOption]
  | ok decoded => simp [Api.fromAccount, hd, Except.toOption, readingOf]

/-- The indexer alone asks whether the decoded tag lives at the address. -/
theorem indexerReading_eq (slot : Nat) :
    indexerReading dep ⟨pda,data,slot⟩ w =
      (decodeTagAccount dep.sol data).toOption.bind (fun decoded =>
        if (deriveTagPda dep.sol decoded.tag).toOption.map Prod.fst = some pda then
          some (readingOf decoded)
        else none) := by
  simp only [indexerReading, Indexer.decodeAndVerify]
  cases decodeTagAccount dep.sol data with
  | error e => rfl
  | ok decoded =>
    simp only [Except.toOption, Option.bind_some]
    cases deriveTagPda dep.sol decoded.tag with
    | error e => rfl
    | ok derived =>
      obtain ⟨address,bump⟩ := derived
      by_cases h : address = pda
      · simp [h, readingOf]
      · simp [h]

theorem decoded_own (h : OfNoOtherTag tag data) {decoded : TagAccount}
    (hd : decodeTagAccount dep.sol data = .ok decoded) : decoded.tag = tag := by
  obtain ⟨account,hs,hden⟩ := Codec.serialize_of_decode hd
  have hb := h account _ hs hden.stored
  rw [encodeUtf8_ascii decoded.tag.ascii] at hb
  apply NormalizedTag.ext_text
  rw [← fromCharCodes_asciiBytes tag.ascii, ← hb]
  exact (fromCharCodes_asciiBytes decoded.tag.ascii).symm

theorem ofNoOtherTag_of_decoded
    (h : ∀ decoded, decodeTagAccount dep.sol data = .ok decoded → decoded.tag.text = tag.text) :
    OfNoOtherTag tag data := by
  rintro account bytes rfl hs
  obtain ⟨decoded,hd,_,ht⟩ := Codec.decode_of_serialize dep.sol hs
  rw [← h decoded hd, ht, asciiBytes_fromCharCodes]

end

/-- The readers agree on what a node returns for a tag's address exactly when it is no
account of another tag. -/
theorem agree_iff {dep : Deployment} {tag : NormalizedTag} {pda : JsString} {bump : UInt8}
    {data : List UInt8} {w : World} (hp : deriveTagPda dep.sol tag = .ok (pda, bump))
    (hu : w.rpcUp = true) (ha : w.accountInfo pda = some data) (slot : Nat) :
    Agree dep tag ⟨pda,data,slot⟩ w ↔ OfNoOtherTag tag data := by
  have hsdk := sdkReading_eq hp hu ha
  have hapi := apiReading_eq hp hu ha
  constructor
  · intro h
    apply ofNoOtherTag_of_decoded
    intro decoded hd
    have hown := h.own (readingOf decoded)
    rw [hsdk, hd] at hown
    exact hown rfl
  · intro h
    refine ⟨hsdk.trans hapi.symm,?_,?_⟩
    · rw [hapi, indexerReading_eq]
      cases hd : decodeTagAccount dep.sol data with
      | error e => rfl
      | ok decoded =>
        have hthere : (deriveTagPda dep.sol decoded.tag).toOption.map Prod.fst = some pda := by
          rw [decoded_own h hd, hp]
          rfl
        rw [Except.toOption, Option.bind_some, if_pos hthere]
        rfl
    · intro reading hr
      rw [hsdk] at hr
      cases hd : decodeTagAccount dep.sol data with
      | error e =>
        rw [hd] at hr
        cases hr
      | ok decoded =>
        rw [hd] at hr
        cases hr
        exact congrArg NormalizedTag.text (decoded_own h hd)

/-- A node whose answer, at any address, is the given account. -/
def answering (account : Program.TagAccount) : World :=
  { World.fresh with accountInfo := fun _ => some account.serialize }

def abcPda : JsString := Program.base58 Program.abcAddress

theorem abc_derived : deriveTagPda Deployment.sample.sol NormalizedTag.abc = .ok (abcPda, 255) := by
  decide

theorem abc_agrees :
    Agree .sample .abc ⟨abcPda,Program.abcAccount.serialize,0⟩ (answering Program.abcAccount) := by
  apply (agree_iff abc_derived rfl rfl 0).mpr
  intro account bytes he hs
  rw [Codec.serialize_injective he] at hs
  rw [← hs.slice]
  decide

/-- What registering `daniel` stores. -/
def danielAccount : Program.TagAccount :=
  ⟨Program.sampleOwner,Program.sampleOwner,⟨Program.danielTag ++ List.replicate 14 0,rfl⟩,6,254⟩

theorem daniel_decodes : ∃ decoded,
    decodeTagAccount Deployment.sample.sol danielAccount.serialize = .ok decoded ∧
      decoded.tag.text = js "daniel" := by
  have hs : Program.StoresTag danielAccount Program.danielTag := by
    exact ⟨⟨by decide,by decide,List.all_eq_true.mp (by decide)⟩,rfl,rfl⟩
  obtain ⟨decoded,hd,_,ht⟩ := Codec.decode_of_serialize Deployment.sample.sol hs
  exact ⟨decoded,hd,ht.trans (by decide)⟩

/-- Answered with the account of `daniel` when asked for `abc`, the SDK and the API hand
it on, and only the indexer refuses it. -/
theorem daniel_as_abc :
    (∃ reading, sdkReading .sample .abc (answering danielAccount) = some reading ∧
      apiReading .sample .abc (answering danielAccount) = some reading ∧
      reading.tag = js "daniel") ∧
    indexerReading .sample ⟨abcPda,danielAccount.serialize,0⟩ (answering danielAccount) = none ∧
    ¬ Agree .sample .abc ⟨abcPda,danielAccount.serialize,0⟩ (answering danielAccount) := by
  obtain ⟨decoded,hd,ht⟩ := daniel_decodes
  have hsdk : sdkReading .sample .abc (answering danielAccount) =
      some (readingOf decoded) := by
    rw [sdkReading_eq abc_derived rfl rfl, hd]
    rfl
  have hapi : apiReading .sample .abc (answering danielAccount) =
      some (readingOf decoded) := by
    rw [apiReading_eq abc_derived rfl rfl, hd]
    rfl
  have helse : (deriveTagPda Deployment.sample.sol (js "daniel")).toOption.map Prod.fst ≠
    some abcPda := by decide
  refine ⟨⟨_,hsdk,hapi,ht⟩,?_,?_⟩
  · rw [indexerReading_eq, hd, Except.toOption, Option.bind_some, ht, if_neg helse]
  · intro h
    have hown : decoded.tag.text = NormalizedTag.abc.text := h.own _ hsdk
    have hne : js "daniel" ≠ NormalizedTag.abc.text := by decide
    exact hne (ht.symm.trans hown)

end Tagwise.Proofs.ChainReaders
