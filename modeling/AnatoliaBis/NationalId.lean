import Mathlib.Logic.Equiv.Basic

/-! # National ids at rest

`national_id.rs`: a national id is stored as the base64 text of a nonce and the ciphertext
under it. The cipher and the codecs are other crates; of them it is assumed that the cipher
is authenticated and that decoding inverts encoding. A panic is `none`.
-/

namespace AnatoliaBis.NationalId

/-- `NONCE_LEN`. -/
def nonceLen : Nat := 12

abbrev Key := Vector UInt8 32

abbrev Nonce := Vector UInt8 nonceLen

/-! ## Bytes and text -/

/-- `str::as_bytes`. -/
def asBytes (s : String) : List UInt8 := s.toByteArray.data.toList

/-- `String::from_utf8(bytes).ok()`. -/
def fromUtf8 (bytes : List UInt8) : Option String := String.fromUTF8? ⟨bytes.toArray⟩

/-- `bytes.split_at(mid)`. -/
def splitAt (bytes : List UInt8) (mid : Nat) : Option (List UInt8 × List UInt8) :=
  if mid ≤ bytes.length then some (bytes.take mid, bytes.drop mid) else none

/-- `<[u8; N]>::try_from(bytes).ok()`. -/
def tryInto (n : Nat) (bytes : List UInt8) : Option (Vector UInt8 n) :=
  if h : bytes.length = n then some ⟨bytes.toArray, h⟩ else none

/-! ## Encryption -/

/-- What the module takes from `aes_gcm`, `base64`, `hmac` and `hex`. -/
structure Crates where
  /-- `cipher(key).encrypt(nonce, plaintext).ok()`. -/
  encrypt : Key → Nonce → List UInt8 → Option (List UInt8)
  /-- `cipher(key).decrypt(nonce, ciphertext).ok()`. -/
  decrypt : Key → Nonce → List UInt8 → Option (List UInt8)
  /-- `BASE64.encode`. -/
  base64Encode : List UInt8 → String
  /-- `BASE64.decode(…).ok()`. -/
  base64Decode : String → Option (List UInt8)
  /-- HMAC-SHA256 of a message. -/
  hmacSha256 : Key → List UInt8 → List UInt8
  /-- `hex::encode`. -/
  hexEncode : List UInt8 → String

/-- An authenticated cipher, and a codec that can be undone. -/
structure Crates.Sound (c : Crates) : Prop where
  encrypts : ∀ key nonce plaintext, ∃ ciphertext, c.encrypt key nonce plaintext = some ciphertext
  /-- A genuine ciphertext is opened. -/
  opens : ∀ key nonce plaintext ciphertext, c.encrypt key nonce plaintext = some ciphertext →
    c.decrypt key nonce ciphertext = some plaintext
  /-- No other is. -/
  genuine : ∀ key nonce plaintext ciphertext, c.decrypt key nonce ciphertext = some plaintext →
    c.encrypt key nonce plaintext = some ciphertext
  decodes : ∀ bytes, c.base64Decode (c.base64Encode bytes) = some bytes

section Stored

variable (c : Crates) (key : Key)

/-- `lookup_hash`. -/
def lookupHash (value : String) : String := c.hexEncode (c.hmacSha256 key (asBytes value))

/-- `encrypt`, with the nonce that is drawn. -/
def encrypt (nonce : Nonce) (plaintext : String) : Option (String × String) := do
  let ciphertext ← c.encrypt key nonce (asBytes plaintext)
  let combined := nonce.toList ++ ciphertext
  return (c.base64Encode combined, lookupHash c key plaintext)

/-- `decrypt`; what it returns, unless it panics. -/
def decrypt (encrypted : String) : Option (Option String) :=
  match c.base64Decode encrypted with
  | none => return none
  | some combined =>
      if combined.length < nonceLen then return none
      else do
        let (nonceBytes, ciphertext) ← splitAt combined nonceLen
        match tryInto nonceLen nonceBytes with
        | none => return none
        | some nonce =>
            match c.decrypt key nonce ciphertext with
            | none => return none
            | some plaintext => return fromUtf8 plaintext

end Stored

/-! ## What is read back -/

theorem fromUtf8_asBytes (s : String) : fromUtf8 (asBytes s) = some s := by
  have hbytes : (⟨(asBytes s).toArray⟩ : ByteArray) = s.toByteArray := by
    unfold asBytes
    rw [Array.toArray_toList]
  unfold fromUtf8 String.fromUTF8?
  rw [hbytes, dif_pos s.isValidUTF8]
  rfl

theorem asBytes_of_fromUtf8 {bytes : List UInt8} {s : String} (h : fromUtf8 bytes = some s) :
    asBytes s = bytes := by
  unfold fromUtf8 String.fromUTF8? at h
  split_ifs at h with hvalid
  have hs : String.fromUTF8 ⟨bytes.toArray⟩ hvalid = s := Option.some.inj h
  rw [← hs]
  rfl

/-- A nonce in front of a ciphertext is split off whole. -/
theorem splitAt_nonce (nonce : Nonce) (ciphertext : List UInt8) :
    splitAt (nonce.toList ++ ciphertext) nonceLen = some (nonce.toList, ciphertext) := by
  have hlen : nonce.toList.length = nonceLen := nonce.length_toList
  unfold splitAt
  rw [if_pos (by rw [List.length_append, hlen]; omega), List.take_left' hlen,
    List.drop_left' hlen]

theorem tryInto_toList (nonce : Nonce) : tryInto nonceLen nonce.toList = some nonce := by
  unfold tryInto
  rw [dif_pos nonce.length_toList]
  rfl

section RoundTrip

variable {c : Crates} {key : Key}

/-- Text that decodes to a nonce and something after it. -/
theorem decrypt_of_decodes {encrypted : String} {nonce : Nonce} {ciphertext : List UInt8}
    (h : c.base64Decode encrypted = some (nonce.toList ++ ciphertext)) :
    decrypt c key encrypted = some ((c.decrypt key nonce ciphertext).bind fromUtf8) := by
  have hlen : ¬ (nonce.toList ++ ciphertext).length < nonceLen := by
    rw [List.length_append, nonce.length_toList]
    omega
  unfold decrypt
  rw [h]
  simp only [if_neg hlen, splitAt_nonce, tryInto_toList, Option.bind_eq_bind, Option.bind_some]
  cases c.decrypt key nonce ciphertext with
  | none => rfl
  | some plaintext => rfl

/-- **Everything `decrypt` can do**: it finds no nonce, or it returns what the cipher opens
behind one. -/
theorem decrypt_cases (c : Crates) (key : Key) (encrypted : String) :
    decrypt c key encrypted = some none ∨
      ∃ (nonce : Nonce) (ciphertext : List UInt8),
        c.base64Decode encrypted = some (nonce.toList ++ ciphertext) ∧
        decrypt c key encrypted = some ((c.decrypt key nonce ciphertext).bind fromUtf8) := by
  cases hdecoded : c.base64Decode encrypted with
  | none =>
      left
      unfold decrypt
      rw [hdecoded]
      rfl
  | some combined =>
      by_cases hshort : combined.length < nonceLen
      · left
        unfold decrypt
        rw [hdecoded]
        simp only [if_pos hshort]
        rfl
      · -- the first bytes are a nonce
        right
        have htake : (combined.take nonceLen).length = nonceLen := by
          rw [List.length_take]
          omega
        have hparts : (⟨(combined.take nonceLen).toArray, htake⟩ : Nonce).toList ++
            combined.drop nonceLen = combined := List.take_append_drop nonceLen combined
        refine ⟨⟨(combined.take nonceLen).toArray, htake⟩, combined.drop nonceLen, ?_, ?_⟩
        · rw [hparts]
        · apply decrypt_of_decodes
          rw [hparts, hdecoded]

/-- **The round trip, and its image.** What is encrypted is read back; and no text makes
`decrypt` panic, or is read as a plaintext unless it holds a nonce and the genuine ciphertext
of that plaintext under it. -/
theorem decrypt_exact (c : Crates) (hc : c.Sound) (key : Key) :
    (∀ (nonce : Nonce) (plaintext : String), ∃ encrypted,
      encrypt c key nonce plaintext = some (encrypted, lookupHash c key plaintext) ∧
        decrypt c key encrypted = some (some plaintext)) ∧
    ∀ s : String, ∃ result, decrypt c key s = some result ∧
      ∀ plaintext, result = some plaintext →
        ∃ (nonce : Nonce) (ciphertext : List UInt8),
          c.base64Decode s = some (nonce.toList ++ ciphertext) ∧
            c.encrypt key nonce (asBytes plaintext) = some ciphertext := by
  constructor
  · intro nonce plaintext
    obtain ⟨ciphertext, hcipher⟩ := hc.encrypts key nonce (asBytes plaintext)
    refine ⟨c.base64Encode (nonce.toList ++ ciphertext), ?_, ?_⟩
    · unfold encrypt
      rw [hcipher]
      rfl
    · have hopens := hc.opens key nonce (asBytes plaintext) ciphertext hcipher
      rw [decrypt_of_decodes (hc.decodes _), hopens, Option.bind_some, fromUtf8_asBytes]
  · intro s
    rcases decrypt_cases c key s with hnone | ⟨nonce, ciphertext, hdecoded, hresult⟩
    · exact ⟨none, hnone, fun plaintext h => nomatch h⟩
    · refine ⟨_, hresult, fun plaintext h => ⟨nonce, ciphertext, hdecoded, ?_⟩⟩
      -- the text is the one of the bytes that the cipher opened
      obtain ⟨bytes, hopened, htext⟩ := Option.bind_eq_some_iff.mp h
      rw [asBytes_of_fromUtf8 htext]
      exact hc.genuine key nonce bytes ciphertext hopened

end RoundTrip

/-! ## An id of eleven digits -/

def sampleKey : Key := Vector.replicate 32 7

def sampleNonce : Nonce := Vector.replicate 12 0

/-- What AES-256-GCM makes of "12345678901" under this key and nonce. -/
def sampleCiphertext : List UInt8 :=
  [80, 234, 151, 134, 206, 164, 60, 208, 216, 55, 190, 69, 201, 68, 36, 247, 81, 38, 212, 93, 48,
    54, 97, 159, 86, 156, 247]

/-- The text stored. -/
def sampleStored : String := "AAAAAAAAAAAAAAAAUOqXhs6kPNDYN75FyUQk91Em1F0wNmGfVpz3"

/-- Sixteen bytes after the plaintext, in place of a tag. -/
def sampleTag : List UInt8 := List.replicate 16 0

/-- Under the key and nonce above the ciphertext above is that of the id. -/
def sampleSwap (key : Key) (nonce : Nonce) (bytes : List UInt8) : List UInt8 :=
  if key = sampleKey ∧ nonce = sampleNonce then
    Equiv.swap (asBytes "12345678901" ++ sampleTag) sampleCiphertext bytes
  else bytes

def sampleLatin (bytes : List UInt8) : String :=
  String.ofList (bytes.map fun b => Char.ofNat b.toNat)

/-- Crates that agree with the real ones on the sample. -/
def sampleCrates : Crates where
  encrypt key nonce plaintext := some (sampleSwap key nonce (plaintext ++ sampleTag))
  decrypt key nonce ciphertext :=
    let bytes := sampleSwap key nonce ciphertext
    if sampleTag <:+ bytes then some (bytes.take (bytes.length - sampleTag.length)) else none
  base64Encode bytes :=
    Equiv.swap (sampleLatin (sampleNonce.toList ++ sampleCiphertext)) sampleStored
      (sampleLatin bytes)
  base64Decode s :=
    some (((Equiv.swap (sampleLatin (sampleNonce.toList ++ sampleCiphertext)) sampleStored
      s).toList).map fun c => UInt8.ofNat c.toNat)
  hmacSha256 _ _ :=
    [2, 227, 88, 233, 2, 191, 226, 31, 70, 104, 184, 231, 241, 81, 125, 205, 130, 246, 48, 146,
      206, 58, 170, 173, 13, 154, 42, 128, 251, 79, 18, 193]
  hexEncode bytes := String.ofList (bytes.flatMap fun b =>
    [Nat.digitChar (b.toNat / 16), Nat.digitChar (b.toNat % 16)])

theorem sampleSwap_sampleSwap (key : Key) (nonce : Nonce) (bytes : List UInt8) :
    sampleSwap key nonce (sampleSwap key nonce bytes) = bytes := by
  unfold sampleSwap
  split_ifs
  · exact Equiv.swap_apply_self _ _ _
  · rfl

theorem toList_sampleLatin (bytes : List UInt8) :
    (sampleLatin bytes).toList.map (fun c => UInt8.ofNat c.toNat) = bytes := by
  have hbyte : ∀ b : UInt8, UInt8.ofNat (Char.ofNat b.toNat).toNat = b := by
    intro b
    have hlt := b.toNat_lt
    have hvalid : b.toNat.isValidChar := Or.inl (by omega)
    have hchar : (Char.ofNat b.toNat).toNat = b.toNat := by
      unfold Char.ofNat
      rw [dif_pos hvalid]
      rfl
    rw [hchar, UInt8.ofNat_toNat]
  unfold sampleLatin
  rw [String.toList_ofList, List.map_map]
  exact List.map_id'' hbyte bytes

theorem sampleCrates_sound : sampleCrates.Sound := by
  constructor
  · intro key nonce plaintext
    exact ⟨_, rfl⟩
  · intro key nonce plaintext ciphertext h
    have hcipher : sampleSwap key nonce (plaintext ++ sampleTag) = ciphertext := Option.some.inj h
    show (if sampleTag <:+ sampleSwap key nonce ciphertext then some _ else none) = _
    rw [← hcipher, sampleSwap_sampleSwap, if_pos (List.suffix_append _ _), List.length_append,
      Nat.add_sub_cancel, List.take_left]
  · intro key nonce plaintext ciphertext h
    have hopened : (if sampleTag <:+ sampleSwap key nonce ciphertext then
        some ((sampleSwap key nonce ciphertext).take
          ((sampleSwap key nonce ciphertext).length - sampleTag.length)) else none) =
        some plaintext := h
    split_ifs at hopened with htag
    obtain ⟨start, hstart⟩ := htag
    rw [← hstart, List.length_append, Nat.add_sub_cancel, List.take_left] at hopened
    show some (sampleSwap key nonce (plaintext ++ sampleTag)) = some ciphertext
    rw [← Option.some.inj hopened, hstart, sampleSwap_sampleSwap]
  · intro bytes
    show some ((Equiv.swap _ _ (Equiv.swap _ _ (sampleLatin bytes))).toList.map _) = some bytes
    rw [Equiv.swap_apply_self, toList_sampleLatin]

/-- The id is stored as the text above, and read back. -/
theorem decrypt_exact_sample :
    (∃ hash, encrypt sampleCrates sampleKey sampleNonce "12345678901" =
      some (sampleStored, hash)) ∧
      decrypt sampleCrates sampleKey sampleStored = some (some "12345678901") := by
  have h := (decrypt_exact sampleCrates sampleCrates_sound sampleKey).1 sampleNonce "12345678901"
  obtain ⟨encrypted, hencrypt, hdecrypt⟩ := h
  have hstored : (encrypt sampleCrates sampleKey sampleNonce "12345678901").map Prod.fst =
      some sampleStored := by decide +kernel
  have hsame : encrypted = sampleStored := by
    rw [hencrypt] at hstored
    exact Option.some.inj hstored
  rw [hsame] at hencrypt hdecrypt
  exact ⟨⟨_, hencrypt⟩, hdecrypt⟩

end AnatoliaBis.NationalId
