import Mathlib.Data.List.Sort
import Tagwise.Api.Transactions
import Tagwise.Program.Sample

/-! One concrete kit: base58, addresses and messages as they are, and ed25519 on the two
texts that the wallet below has signed. -/

namespace Tagwise.Api
open Js Lib
open Program (base58 base58Alphabet base58Unit base58Digits base58Digits_lt base58Digits_length
  base58_digits base58Digits_number keyNumber keyNumber_digits keyTail key_split)

def bigEndian (n : Nat) : List UInt8 := (Nat.digits 256 n).reverse.map UInt8.ofNat

/-- A zero byte for each leading `1`, then the number of the digits. -/
def decodeBase58 (s : JsString) : Option (List UInt8) :=
  if s.all (base58Alphabet.contains ·) then
    some (List.replicate (s.takeWhile (· == base58Alphabet.head!)).length 0 ++
      bigEndian (Nat.ofDigits 58 (s.reverse.map base58Alphabet.idxOf)))
  else none

def addressBytes (s : JsString) : Option (List UInt8) :=
  if 32 ≤ s.length ∧ s.length ≤ 44 then (decodeBase58 s).filter (fun key => key.length = 32)
  else none

theorem base58Unit_known : ∀ d < 58, base58Alphabet.contains (base58Unit d) = true := by
  decide

theorem base58Unit_zero : ∀ d < 58, (base58Unit d == base58Alphabet.head!) = (d == 0) := by
  decide

theorem base58Digits_zeros (key : Program.Pubkey) :
    (base58Digits key).takeWhile (· == 0) =
      List.replicate (key.data.takeWhile (· == 0)).length 0 := by
  rw [base58Digits, List.takeWhile_append_of_pos (by simp)]
  suffices h : ((Nat.digits 58 (keyNumber key)).reverse).takeWhile (· == 0) = [] by simp [h]
  by_cases hz : keyNumber key = 0
  · simp [hz]
  · have hlast := Nat.getLast_digit_ne_zero 58 hz
    have hne : Nat.digits 58 (keyNumber key) ≠ [] := Nat.digits_ne_nil_iff_ne_zero.mpr hz
    rw [← List.dropLast_append_getLast hne, List.reverse_append, List.reverse_singleton,
      List.singleton_append, List.takeWhile_cons_of_neg (by simpa using hlast)]

theorem base58_zeros (key : Program.Pubkey) :
    ((base58 key).takeWhile (· == base58Alphabet.head!)).length =
      (key.data.takeWhile (· == 0)).length := by
  have hcongr : ∀ ds : List Nat, (∀ d ∈ ds, d < 58) →
      ds.takeWhile ((· == base58Alphabet.head!) ∘ base58Unit) = ds.takeWhile (· == 0) := by
    intro ds
    induction ds with
    | nil => intro _; rfl
    | cons d ds ih =>
      intro hd
      have := base58Unit_zero d (hd d (by simp))
      rw [List.takeWhile_cons, List.takeWhile_cons, ih (fun e he => hd e (by simp [he])),
        Function.comp_apply, this]
  rw [base58, List.takeWhile_map, List.length_map, hcongr _ (base58Digits_lt key),
    base58Digits_zeros, List.length_replicate]

theorem bigEndian_keyNumber (key : Program.Pubkey) : bigEndian (keyNumber key) = keyTail key := by
  rw [bigEndian, keyNumber_digits, ← List.map_reverse, List.reverse_reverse, List.map_map]
  calc (keyTail key).map _ = (keyTail key).map id := by
        apply List.map_congr_left
        intro b _
        simp
    _ = keyTail key := List.map_id _

/-- Every key comes back from its text. -/
theorem decodeBase58_base58 (key : Program.Pubkey) : decodeBase58 (base58 key) = some key.data := by
  have hall : (base58 key).all (base58Alphabet.contains ·) = true := by
    apply List.all_eq_true.mpr
    intro u hu
    obtain ⟨d,hd,rfl⟩ := List.mem_map.mp hu
    exact base58Unit_known d (base58Digits_lt key d hd)
  rw [decodeBase58, if_pos hall, base58_zeros, List.map_reverse, base58_digits,
    base58Digits_number, bigEndian_keyNumber, key_split]

theorem addressBytes_length {s : JsString} {bytes : List UInt8} (h : addressBytes s = some bytes) :
    bytes.length = 32 := by
  rw [addressBytes] at h
  split at h
  · exact of_decide_eq_true (Option.filter_eq_some_iff.mp h).2
  · cases h

theorem addressBytes_base58 (key : Program.Pubkey) : addressBytes (base58 key) = some key.data := by
  have hl := base58Digits_length key
  rw [addressBytes, if_pos (by rwa [base58, List.length_map]), decodeBase58_base58]
  simp [key.size]

def walletKey : Program.Pubkey := ⟨[215, 90, 152, 1, 130, 177, 10, 183, 213, 75, 254, 211, 201,
  100, 7, 58, 14, 225, 114, 243, 218, 166, 35, 37, 175, 2, 26, 104, 247, 7, 81, 26], rfl⟩

def wallet : JsString := js "FVen3X669xLzsi6N2V91DoiyzHzg1uAgqiT8jZ9nS96Z"

example : base58 walletKey = wallet := by decide

/-- The start of the sample runs, 2026-01-15T12:00:00.000Z. -/
def sampleNow : Nat := 1768478400000

def sampleRandom : Program.Bytes nonceBytes :=
  ⟨(List.range 24).map (fun i => UInt8.ofNat (i + 1)), rfl⟩

/-- What a challenge returns for the wallet at the start. -/
def walletText : JsString := buildSignInMessage
  { domain := js "tagwise.me"
    pubkey := wallet
    nonce := hex sampleRandom
    issuedAt := js "2026-01-15T12:00:00.000Z"
    expirationTime := js "2026-01-15T12:05:00.000Z" }

def walletSignature : JsString :=
  js ("27QmQcJSPcC1b3m7V94oKew2JkWbZcvxS2MoPUErFUjmfZCFNSi6oo2hjGcEanftXPPndPacQXLQAkViNgy83Yjc")

/-- Another site's text, in its own words and with its own dates, around the nonce
that the server has issued. -/
def foreignText : JsString := [newline].intercalate [
  js "airdrop.example" ++ domainLineSuffix,
  wallet,
  [],
  js "Sign in to claim your airdrop.",
  [],
  noncePrefix ++ hex sampleRandom,
  issuedAtPrefix ++ js "2025-06-01T00:00:00.000Z",
  expirationPrefix ++ js "2027-06-01T00:00:00.000Z"]

def foreignSignature : JsString :=
  js ("3Q4nCu6KkVtJbr5R2Yoc3heQ5ZJg61zgfTY6Yvpy4gmnMCZ51tuSurLV3Lz5rCZbo45QsxLhDKLQG9gcAYGESdxc")

def sampleKit : Kit where
  isAddress := fun s => (addressBytes s).isSome
  addressEncoder := addressBytes
  base58Encoder := decodeBase58
  detachedVerify := fun message signature pubkey => pubkey == walletKey.data &&
    (message == encodeUtf8 walletText && decodeBase58 walletSignature == some signature ||
      message == encodeUtf8 foreignText && decodeBase58 foreignSignature == some signature)
  otherDate := fun _ => none

def compactU16 (n : Nat) : List UInt8 :=
  if n < 2 ^ 7 then [UInt8.ofNat n]
  else if n < 2 ^ 14 then [UInt8.ofNat (n % 2 ^ 7 + 2 ^ 7), UInt8.ofNat (n / 2 ^ 7)]
  else [UInt8.ofNat (n % 2 ^ 7 + 2 ^ 7), UInt8.ofNat (n / 2 ^ 7 % 2 ^ 7 + 2 ^ 7),
    UInt8.ofNat (n / 2 ^ 14)]

/-- Who pays, who signs, what is written, what is read. -/
def keyRank (message : TransactionMessage) (text : JsString) : Nat :=
  let wanted (role : AccountRole → Bool) :=
    message.accounts.any (fun account => account.address = text && role account.role)
  if text = message.feePayer then 0
  else match wanted AccountRole.isSigner, wanted AccountRole.isWritable with
    | true, true => 1
    | true, false => 2
    | false, true => 3
    | false, false => 4

def keyLe (message : TransactionMessage) (a b : JsString) : Bool :=
  keyRank message a < keyRank message b || (keyRank message a = keyRank message b && a ≤ b)

def messageKeys (message : TransactionMessage) : List JsString :=
  ((message.accounts.map AccountMeta.address ++
    message.instructions.map Instruction.programAddress).dedup).insertionSort
      (fun a b => keyLe message a b = true)

/-- Version 0: the counts, the keys, the blockhash, and the instructions by their keys' places. -/
def messageBytes (message : TransactionMessage) : Option (List UInt8) := do
  let keys := messageKeys message
  let counted (ranks : List Nat) :=
    UInt8.ofNat (keys.countP (fun key => ranks.contains (keyRank message key)))
  let place (key : JsString) := UInt8.ofNat (keys.idxOf key)
  let keyBytes ← keys.mapM addressBytes
  let blockhash ← addressBytes message.lifetime.blockhash
  return [0x80, counted [0, 1, 2], counted [2], counted [4]] ++ compactU16 keys.length ++
    keyBytes.flatten ++ blockhash ++ compactU16 message.instructions.length ++
    message.instructions.flatMap (fun instruction =>
      place instruction.programAddress ::
        (compactU16 instruction.accounts.length ++
          instruction.accounts.map (fun account => place account.address) ++
          compactU16 instruction.data.length ++ instruction.data)) ++ compactU16 0

def sampleCompile (message : TransactionMessage) : Except CompileError CompiledTransaction :=
  match message.instructions.find? (·.programAddress = message.feePayer) with
  | some instruction => .error (.invokedProgramsCannotPayFees instruction.programAddress)
  | none =>
    match message.instructions.find? (fun instruction => message.accounts.any (fun account =>
      account.role.isWritable && account.address = instruction.programAddress)) with
    | some instruction => .error (.invokedProgramsMustNotBeWritable instruction.programAddress)
    | none =>
      match messageBytes message with
      | none => .error .encoding
      | some bytes =>
        .ok ⟨bytes, (messageKeys message).filter (fun key => keyRank message key ≤ 2)⟩

def sampleCodecs : Codecs where
  utf8Encoder := encodeUtf8
  u32Encoder := Borsh.u32
  addEncoderSizePrefix := fun encoder sizeEncoder text =>
    sizeEncoder (encoder text).length ++ encoder text
  compileTransaction := sampleCompile

theorem encodes_all {keys : List JsString}
    (h : ∀ key ∈ keys, (addressBytes key).isSome = true) :
    ∃ keyBytes, keys.mapM addressBytes = some keyBytes := by
  induction keys with
  | nil => exact ⟨[],rfl⟩
  | cons key keys ih =>
    obtain ⟨bytes,hbytes⟩ := Option.isSome_iff_exists.mp (h key List.mem_cons_self)
    obtain ⟨rest,hrest⟩ := ih (fun other ho => h other (List.mem_cons_of_mem _ ho))
    exact ⟨bytes :: rest,by simp [List.mapM_cons, hbytes, hrest]⟩

theorem messageBytes_encodes {message : TransactionMessage} (h : message.Compilable sampleKit) :
    ∃ bytes, messageBytes message = some bytes := by
  obtain ⟨keyBytes,hkeys⟩ : ∃ keyBytes, (messageKeys message).mapM addressBytes = some keyBytes := by
    apply encodes_all
    intro key hkey
    rw [messageKeys, List.mem_insertionSort, List.mem_dedup, List.mem_append] at hkey
    rcases hkey with hkey | hkey
    · obtain ⟨account,ha,rfl⟩ := List.mem_map.mp hkey
      exact h.accounts account ha
    · obtain ⟨instruction,hi,rfl⟩ := List.mem_map.mp hkey
      exact (h.programs instruction hi).1
  obtain ⟨blockhash,hblockhash⟩ := Option.isSome_iff_exists.mp h.blockhash
  simp only [messageBytes, hkeys, hblockhash, bind, Option.bind, pure]
  exact ⟨_,rfl⟩

theorem sampleCodecs_compiles : sampleCodecs.Compiles sampleKit where
  ok := by
    intro message h
    have hpays : message.instructions.find? (·.programAddress = message.feePayer) = none := by
      apply List.find?_eq_none.mpr
      intro instruction hi
      rw [decide_eq_true_eq]
      exact ((h.programs instruction hi).2 _ List.mem_cons_self rfl).symm
    have hwritten : message.instructions.find? (fun instruction => message.accounts.any
        (fun account => account.role.isWritable && account.address = instruction.programAddress)) =
          none := by
      apply List.find?_eq_none.mpr
      intro instruction hi hany
      obtain ⟨account,ha,hboth⟩ := List.any_eq_true.mp hany
      obtain ⟨hw,he⟩ := Bool.and_eq_true_iff.mp hboth
      exact (h.programs instruction hi).2 account ha hw (of_decide_eq_true he)
    obtain ⟨bytes,hbytes⟩ := messageBytes_encodes h
    refine ⟨⟨bytes,(messageKeys message).filter (fun key => keyRank message key ≤ 2)⟩,?_⟩
    change sampleCompile message = _
    simp only [sampleCompile, hpays, hwritten, hbytes]
  refuses := by
    intro message ⟨instruction,hi,he⟩
    have hsome : (message.instructions.find? (·.programAddress = message.feePayer)).isSome := by
      rw [List.find?_isSome]
      exact ⟨instruction,hi,decide_eq_true he⟩
    obtain ⟨found,hfound⟩ := Option.isSome_iff_exists.mp hsome
    refine ⟨.invokedProgramsCannotPayFees found.programAddress,?_⟩
    change sampleCompile message = _
    simp only [sampleCompile, hfound]

def AuthConfig.sample : AuthConfig where
  authDomain := js "tagwise.me"
  authNonceTtlSeconds := 300
  redisKeyPrefix := js "tip:"
  kit := sampleKit

def challengeEvents : List AuthEvent :=
  .spawn (.challenge wallet) :: List.replicate 4 (.turn 0)

/-- The wallet asks for a text and brings back a signed one. -/
def signInEvents (message signature : JsString) : List AuthEvent :=
  challengeEvents ++ [.spawn (.verify wallet message signature), .turn 1, .turn 1]

def signedIn (message signature : JsString) : AuthPool :=
  AuthPool.after .sample (AuthWorld.start sampleNow [sampleRandom]) (signInEvents message signature)

example : (signedIn walletText walletSignature).result 0 = some (.ok (.message walletText)) := by
  decide +kernel

end Tagwise.Api
