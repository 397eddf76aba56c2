import Launa.App.PublishReading
import Launa.Lib.BlockCipher
import Launa.Protocol.Hex

/-!
# Stored passwords

`crypto.rs` of the app. The AES peripheral is a function of the key and a block. `maybeDecrypt`
reads back what `encrypt` writes (`maybeDecrypt_encrypt`), and returns every text without the prefix
as it is. Its bounds are those of the source, and on no text is one of them exceeded
(`isSome_maybeDecrypt`).
-/

namespace Launa.App

open BlockCipher Mqtt Protocol Utf8Bytes

/-- `ENC_PREFIX`. -/
def encPrefix : String := "enc:"

/-- The loop of `increment_counter` over the bytes, last one first. -/
def incrementBytes : List UInt8 → List UInt8
  | [] => []
  | byte :: bytes =>
    let byte := byte + 1
    if byte ≠ 0 then byte :: bytes else byte :: incrementBytes bytes

/-- The next counter has as many bytes. -/
theorem length_incrementBytes (bytes : List UInt8) :
    (incrementBytes bytes).length = bytes.length := by
  induction bytes with
  | nil => rfl
  | cons byte bytes ih =>
    rw [incrementBytes]
    split
    · rfl
    · rw [List.length_cons, List.length_cons, ih]

/-- `increment_counter`. -/
def incrementCounter (counter : Vector UInt8 16) : Vector UInt8 16 :=
  ⟨(incrementBytes counter.toList.reverse).reverse.toArray, by
    rw [List.size_toArray, List.length_reverse, length_incrementBytes, List.length_reverse,
      Vector.length_toList]⟩

/-- `ctr_crypt`. -/
def ctrCrypt (aes : Vector UInt8 16 → Vector UInt8 16 → Vector UInt8 16) (key : Vector UInt8 16)
    (counter : Vector UInt8 16) (buf : List UInt8) : List UInt8 :=
  ctr 16 (fun counter => (aes key counter).toList) incrementCounter (buf.length / 16) counter buf

/-- `counter[..12].copy_from_slice(nonce)` on zeros. It panics for another length than 12. -/
def initialCounter (nonce : List UInt8) : Option (Vector UInt8 16) :=
  if h : nonce.length = 12 then
    some ⟨(nonce ++ List.replicate 4 0).toArray, by
      rw [List.size_toArray, List.length_append, List.length_replicate, h]⟩
  else none

/-- The PKCS7 padding of so many bytes. -/
def padding (len : ℕ) : List UInt8 :=
  let padLen := 16 - len % 16
  List.replicate padLen (UInt8.ofNat padLen)

/-- `encrypt` with the random nonce, where `none` panics. -/
def encrypt (aes : Vector UInt8 16 → Vector UInt8 16 → Vector UInt8 16) (key : Vector UInt8 16)
    (nonce : Vector UInt8 12) (plaintext : String) : Option String :=
  if plaintext.isEmpty then some ""
  else do
    let counter ← initialCounter nonce.toList
    let plainBytes := asBytes plaintext
    let buf := plainBytes ++ padding plainBytes.length
    some (encPrefix ++ toHex (nonce.toList ++ ctrCrypt aes key counter buf))

/-- A buffer without its PKCS7 padding. -/
def removePadding (buf : List UInt8) : Option (List UInt8) :=
  match buf.getLast? with
  | none => some buf
  | some padVal =>
    let padVal := padVal.toNat
    if 0 < padVal ∧ padVal ≤ 16 ∧ padVal ≤ buf.length then do
      let padStart := buf.length - padVal
      let tail ← slice buf padStart buf.length
      let valid := tail.all fun b => b.toNat == padVal
      if valid then some (buf.take padStart) else some buf
    else some buf

/-- `maybe_decrypt`, where `none` panics. -/
def maybeDecrypt (aes : Vector UInt8 16 → Vector UInt8 16 → Vector UInt8 16)
    (key : Vector UInt8 16) (value : String) : Option String :=
  if ¬ encPrefix.toList.isPrefixOf value.toList then some value
  else do
    let hexPart ← sliceFrom value encPrefix.utf8ByteSize
    if hexPart.utf8ByteSize < 56 then some value
    else match fromHex hexPart with
      | none => some value
      | some combined =>
        if combined.length < 28 then some value
        else do
          let nonce12 ← slice combined 0 12
          let ciphertext ← slice combined 12 combined.length
          if ciphertext.length % 16 ≠ 0 then some value
          else do
            let counter ← initialCounter nonce12
            let buf ← removePadding (ctrCrypt aes key counter ciphertext)
            match fromUtf8 buf with
            | some s => some s
            | none => some value

variable {aes : Vector UInt8 16 → Vector UInt8 16 → Vector UInt8 16} {key : Vector UInt8 16}
  {bs buf combined : List UInt8} {value : String}

/-! ## Padding -/

/-- The padding is removed as a whole, and nothing else. -/
theorem removePadding_append (bs : List UInt8) :
    removePadding (bs ++ padding bs.length) = some bs := by
  -- Behind whole blocks there is a whole block of padding, so the last byte is never 0.
  have hmod := Nat.mod_lt bs.length (show 0 < 16 by decide)
  obtain ⟨n, hn⟩ : ∃ n, 16 - bs.length % 16 = n + 1 := ⟨15 - bs.length % 16, by omega⟩
  have hle : n + 1 ≤ 16 := by omega
  have hval : (UInt8.ofNat (n + 1)).toNat = n + 1 :=
    UInt8.toNat_ofNat_of_lt' (show _ < 256 by omega)
  have hpad : padding bs.length = List.replicate (n + 1) (UInt8.ofNat (n + 1)) := by
    rw [padding, hn]
  have hlast : (bs ++ padding bs.length).getLast? = some (UInt8.ofNat (n + 1)) := by
    rw [hpad, List.replicate_succ', ← List.append_assoc, List.getLast?_concat]
  have hlength : (bs ++ padding bs.length).length = bs.length + (n + 1) := by
    rw [List.length_append, hpad, List.length_replicate]
  have htail : slice (bs ++ padding bs.length) bs.length (bs ++ padding bs.length).length =
      some (padding bs.length) := by
    rw [slice_length (by rw [hlength]; omega), List.drop_left]
  have hvalid : (padding bs.length).all (fun b => b.toNat == n + 1) = true := by
    rw [hpad, List.all_replicate, hval]
    simp
  rw [removePadding, hlast]
  dsimp only
  rw [hval, if_pos ⟨Nat.succ_pos n, hle, by omega⟩, hlength, Nat.add_sub_cancel, ← hlength, htail]
  simp only [Option.bind_eq_bind, Option.bind_some, hvalid, if_true, List.take_left]

/-- Padding is removed without a panic. -/
theorem isSome_removePadding (buf : List UInt8) : (removePadding buf).isSome := by
  unfold removePadding
  split
  · rfl
  · dsimp only
    split
    · rw [slice_length (Nat.sub_le _ _)]
      simp only [Option.bind_eq_bind, Option.bind_some]
      split <;> rfl
    · rfl

/-! ## The two directions -/

/-- Counter mode undoes itself. -/
theorem ctrCrypt_ctrCrypt (counter : Vector UInt8 16) (buf : List UInt8) :
    ctrCrypt aes key counter (ctrCrypt aes key counter buf) = buf := by
  have hstream (c : Vector UInt8 16) : (aes key c).toList.length = 16 := Vector.length_toList
  have hblocks : 16 * (buf.length / 16) ≤ buf.length := Nat.mul_div_le _ _
  rw [ctrCrypt, ctrCrypt, length_ctr hstream hblocks]
  exact ctr_ctr hstream hblocks

/-- Counter mode keeps the length. -/
theorem length_ctrCrypt (counter : Vector UInt8 16) (buf : List UInt8) :
    (ctrCrypt aes key counter buf).length = buf.length :=
  length_ctr (fun _ => Vector.length_toList) (Nat.mul_div_le _ _)

/-- A text with the prefix, cut behind it. -/
theorem exists_sliceFrom (h : encPrefix.toList.isPrefixOf value.toList = true) :
    ∃ hexPart, value = encPrefix ++ hexPart ∧
      sliceFrom value encPrefix.utf8ByteSize = some hexPart := by
  obtain ⟨rest, hrest⟩ := List.isPrefixOf_iff_prefix.1 h
  have hvalue : value = encPrefix ++ .ofList rest := by
    apply String.toList_injective
    rw [String.toList_append, String.toList_ofList, hrest]
  exact ⟨_, hvalue, by rw [hvalue]; exact sliceFrom_append _ _⟩

/-- Decryption indexes nothing out of range. -/
theorem isSome_maybeDecrypt (aes : Vector UInt8 16 → Vector UInt8 16 → Vector UInt8 16)
    (key : Vector UInt8 16) (value : String) : (maybeDecrypt aes key value).isSome := by
  unfold maybeDecrypt
  split
  · rfl
  rename_i hprefix
  obtain ⟨hexPart, -, hslice⟩ := exists_sliceFrom (Decidable.not_not.1 hprefix)
  rw [hslice]
  simp only [Option.bind_eq_bind, Option.bind_some]
  -- Where the source gives up, it returns the text as it is.
  split
  · rfl
  split
  · rfl
  split
  · rfl
  rename_i combined _ hlength
  have hnonce : (combined.take 12).length = 12 := by
    rw [List.length_take]
    omega
  obtain ⟨counter, hcounter⟩ : ∃ counter, initialCounter (combined.take 12) = some counter :=
    ⟨_, dif_pos hnonce⟩
  rw [slice_of_le (Nat.zero_le _) (by omega), slice_length (by omega)]
  simp only [Option.bind_some, List.drop_zero, Nat.sub_zero, hcounter]
  split
  · rfl
  obtain ⟨buf, hbuf⟩ := Option.isSome_iff_exists.1
    (isSome_removePadding (ctrCrypt aes key counter (combined.drop 12)))
  rw [hbuf, Option.bind_some]
  split <;> rfl

/-- What is not marked as encrypted is taken as it is. -/
theorem maybeDecrypt_of_not_prefix (h : ¬encPrefix.toList <+: value.toList) :
    maybeDecrypt aes key value = some value := by
  have hprefix : ¬encPrefix.toList.isPrefixOf value.toList := mt List.isPrefixOf_iff_prefix.1 h
  rw [maybeDecrypt, if_pos hprefix]

/-- What follows the prefix is decrypted, if it is the hex text of a nonce and of whole blocks that
decrypt to a padded text. -/
theorem maybeDecrypt_toHex {nonce ciphertext : List UInt8} {counter : Vector UInt8 16}
    {plaintext : String} (hnonce : nonce.length = 12)
    (hcounter : initialCounter nonce = some counter) (hlow : 16 ≤ ciphertext.length)
    (hhigh : ciphertext.length ≤ 500) (hblocks : ciphertext.length % 16 = 0)
    (hbuf : removePadding (ctrCrypt aes key counter ciphertext) = some (asBytes plaintext)) :
    maybeDecrypt aes key (encPrefix ++ toHex (nonce ++ ciphertext)) = some plaintext := by
  have hlength : (nonce ++ ciphertext).length = 12 + ciphertext.length := by
    rw [List.length_append, hnonce]
  have hprefix : ¬¬encPrefix.toList.isPrefixOf
      (encPrefix ++ toHex (nonce ++ ciphertext)).toList = true := by
    rw [Decidable.not_not, List.isPrefixOf_iff_prefix, String.toList_append]
    exact List.prefix_append _ _
  have hhex : (toHex (nonce ++ ciphertext)).utf8ByteSize = 2 * (12 + ciphertext.length) := by
    rw [← hlength, ← length_bytes_hexPair, ← asBytes_toHex]
    exact Array.length_toList.symm
  rw [maybeDecrypt, if_neg hprefix, sliceFrom_append]
  simp only [Option.bind_eq_bind, Option.bind_some]
  rw [if_neg (by omega), fromHex_toHex (by omega)]
  dsimp only
  rw [if_neg (by omega), slice_of_le (Nat.zero_le _) (by omega), slice_length (by omega)]
  simp only [Option.bind_some, List.drop_zero, Nat.sub_zero, List.take_left' hnonce,
    List.drop_left' hnonce, hcounter, hbuf, fromUtf8_asBytes]
  exact if_neg (fun hne => hne hblocks)

/-- A password comes back. -/
theorem maybeDecrypt_encrypt (nonce : Vector UInt8 12) {plaintext : String}
    (h : plaintext.utf8ByteSize ≤ 495) :
    (encrypt aes key nonce plaintext).bind (maybeDecrypt aes key) = some plaintext := by
  unfold encrypt
  split
  -- The empty text is stored without the prefix.
  · rename_i hempty
    have hnil : plaintext = "" := String.isEmpty_iff.1 hempty
    rw [hnil, Option.bind_some]
    exact maybeDecrypt_of_not_prefix (by decide +kernel)
  · obtain ⟨counter, hcounter⟩ : ∃ counter, initialCounter nonce.toList = some counter :=
      ⟨_, dif_pos Vector.length_toList⟩
    have hsize : (asBytes plaintext).length = plaintext.utf8ByteSize := Array.length_toList
    have hpad : (padding (asBytes plaintext).length).length =
        16 - (asBytes plaintext).length % 16 := List.length_replicate
    rw [hcounter]
    simp only [Option.bind_eq_bind, Option.bind_some]
    refine maybeDecrypt_toHex Vector.length_toList hcounter ?_ ?_ ?_ ?_
    · rw [length_ctrCrypt, List.length_append, hpad]
      omega
    -- 495 bytes are padded to 496, the most whole blocks that `from_hex` takes with the nonce.
    · rw [length_ctrCrypt, List.length_append, hpad]
      omega
    · rw [length_ctrCrypt, List.length_append, hpad]
      omega
    · rw [ctrCrypt_ctrCrypt, removePadding_append]

/-- Under every key and every block function, a password of up to 495 bytes comes back, a text
without the prefix is returned as it is, and no text makes the decryption panic. -/
theorem stored_password (aes : Vector UInt8 16 → Vector UInt8 16 → Vector UInt8 16)
    (key : Vector UInt8 16) :
    (∀ (nonce : Vector UInt8 12) (plaintext : String), plaintext.utf8ByteSize ≤ 495 →
      (encrypt aes key nonce plaintext).bind (maybeDecrypt aes key) = some plaintext) ∧
    (∀ value : String, ¬encPrefix.toList <+: value.toList →
      maybeDecrypt aes key value = some value) ∧
    ∀ value : String, (maybeDecrypt aes key value).isSome :=
  ⟨fun nonce _ h => maybeDecrypt_encrypt nonce h, fun _ h => maybeDecrypt_of_not_prefix h,
    isSome_maybeDecrypt aes key⟩

/-- With a block function that XORs the key, a password that starts with the prefix. -/
theorem stored_password_enc :
    (encrypt (fun key block => key.zipWith (· ^^^ ·) block) (.replicate 16 7) (.replicate 12 1)
      "enc:x").bind (maybeDecrypt (fun key block => key.zipWith (· ^^^ ·) block)
        (.replicate 16 7)) = some "enc:x" :=
  (stored_password _ _).1 _ _ (by decide +kernel)

end Launa.App
