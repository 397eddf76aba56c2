import Launa.Mqtt.OtaUrl

/-!
# Addresses and backoff

`network.rs`: the parser of dotted quads, and the delay before a connection is tried again. A field
of an address is what `u8`'s `from_str` reads, which is decimal digits after at most one `+`
(`fromStrRadix_eq_some_iff`), so an address is accepted with leading zeros and signs, and in no
other form than four such fields (`parseIp_exact`).
-/

namespace Launa.Core

open Json Ota Mqtt

/-- An IPv4 address. -/
abbrev Ipv4 := Vector UInt8 4

/-- `parse::<u8>` of a field. -/
def parseOctet (field : List Char) : Option UInt8 :=
  (fromStrRadix 10 (2^8) field).map UInt8.ofNat

/-- `parse_ip`. -/
def parseIp (s : List Char) : Option Ipv4 :=
  match s.splitOn '.' with
  | [fa, fb, fc, fd] => do
    let a ← parseOctet fa
    let b ← parseOctet fb
    let c ← parseOctet fc
    let d ← parseOctet fd
    return #v[a, b, c, d]
  -- Too few fields, or one left.
  | _ => none

/-- `backoff_secs`, with the shift of a `u64`. -/
def backoffSecs (attempt : ℕ) : ℕ := min ((5 <<< min (attempt - 1) 4) % 2^64) 60

/-! ## Decimal numbers -/

/-- A character is a decimal digit of a value exactly when that is what it is worth. -/
theorem toDigit_ten_eq_some_iff {c : Char} {d : ℕ} :
    toDigit 10 c = some d ↔ c.isDigit = true ∧ d = c.toNat - '0'.toNat := by
  by_cases hdigit : ('0' ≤ c && c ≤ '9') = true
  · have hlt : c.toNat - '0'.toNat < 10 := by
      have hle : c.toNat ≤ '9'.toNat := of_decide_eq_true (Bool.and_eq_true_iff.1 hdigit).2
      simp only [Char.reduceToNat] at hle ⊢
      omega
    have hvalue : toDigit 10 c = some (c.toNat - '0'.toNat) := by
      rw [toDigit]
      simp only [hdigit, if_true]
      exact if_pos hlt
    rw [hvalue, Option.some.injEq]
    exact ⟨fun h => ⟨hdigit, h.symm⟩, fun h => h.2.symm⟩
  · -- A letter is worth 10 at least.
    have hnone : toDigit 10 c = none := by
      rw [toDigit]
      simp only [Bool.not_eq_true _ ▸ hdigit, Bool.false_eq_true, if_false]
      apply if_neg
      split_ifs <;> omega
    rw [hnone]
    exact iff_of_false (Option.some_ne_none d).symm fun h => hdigit h.1

/-- Only digits are read. -/
theorem foldlM_digits_inv {bound : ℕ} {cs : List Char} {n m : ℕ}
    (h : cs.foldlM (fun n c => (toDigit 10 c).bind fun d =>
      if n * 10 + d < bound then some (n * 10 + d) else none) n = some m) :
    (∀ c ∈ cs, c.isDigit = true) ∧ Nat.ofDigitChars 10 cs n = m ∧ (cs ≠ [] → m < bound) := by
  induction cs generalizing n with
  | nil =>
    cases h
    exact ⟨nofun, rfl, fun h => absurd rfl h⟩
  | cons c cs ih =>
    rw [List.foldlM_cons] at h
    obtain ⟨next, hnext, hrest⟩ := Option.bind_eq_some_iff.1 h
    obtain ⟨d, hd, hlt⟩ := Option.bind_eq_some_iff.1 hnext
    obtain ⟨hdigit, rfl⟩ := toDigit_ten_eq_some_iff.1 hd
    split_ifs at hlt with hbound
    cases hlt
    obtain ⟨hdigits, hvalue, hm⟩ := ih hrest
    refine ⟨?_, ?_, fun _ => ?_⟩
    · rintro c' (_ | ⟨_, hmem⟩)
      · exact hdigit
      · exact hdigits c' hmem
    · rw [Nat.ofDigitChars_cons, mul_comm 10]
      exact hvalue
    · by_cases hcs : cs = []
      · subst hcs
        cases hrest
        exact hbound
      · exact hm hcs

/-- What `from_str` reads of an unsigned type: digits, behind at most one `+`. -/
structure IsNumber (bound : ℕ) (text : List Char) (n : ℕ) : Prop where
  spelled : ∃ digits, (text = digits ∨ text = '+' :: digits) ∧ digits ≠ [] ∧
    (∀ d ∈ digits, d.isDigit = true) ∧ digitsValue digits = n
  lt : n < bound

/-- `from_str` reads the numbers below the type's bound. -/
theorem fromStrRadix_eq_some_iff {bound : ℕ} {text : List Char} {n : ℕ} :
    fromStrRadix 10 bound text = some n ↔ IsNumber bound text n := by
  -- What is left behind a sign.
  have hread : ∀ digits : List Char, (if digits.isEmpty then none
      else digits.foldlM (fun n c => (toDigit 10 c).bind fun d =>
        if n * 10 + d < bound then some (n * 10 + d) else none) 0) = some n ↔
      digits ≠ [] ∧ (∀ d ∈ digits, d.isDigit = true) ∧ digitsValue digits = n ∧ n < bound := by
    intro digits
    constructor
    · intro h
      split_ifs at h with hempty
      obtain ⟨hdigits, hvalue, hlt⟩ := foldlM_digits_inv h
      have hne : digits ≠ [] := by simpa using hempty
      exact ⟨hne, hdigits, hvalue, hlt hne⟩
    · rintro ⟨hne, hdigits, rfl, hlt⟩
      rw [if_neg (by simpa using hne)]
      exact foldlM_digits digits 0 hdigits hlt
  constructor
  · intro h
    unfold fromStrRadix at h
    split at h
    · rename_i rest
      obtain ⟨hne, hdigits, hvalue, hlt⟩ := (hread rest).1 h
      exact ⟨⟨rest, .inr rfl, hne, hdigits, hvalue⟩, hlt⟩
    · obtain ⟨hne, hdigits, hvalue, hlt⟩ := (hread text).1 h
      exact ⟨⟨text, .inl rfl, hne, hdigits, hvalue⟩, hlt⟩
  · rintro ⟨⟨digits, htext, hne, hdigits, hvalue⟩, hlt⟩
    have hok := (hread digits).2 ⟨hne, hdigits, hvalue, hlt⟩
    rcases htext with rfl | rfl
    · unfold fromStrRadix
      split
      · exact absurd (hdigits '+' List.mem_cons_self) (by decide)
      · exact hok
    · exact hok

/-- A number in decimal is read. -/
theorem isNumber_toDigits {bound n : ℕ} (h : n < bound) : IsNumber bound (Nat.toDigits 10 n) n :=
  ⟨⟨_, .inl rfl, Nat.toDigits_ne_nil,
    fun _ hd => Nat.isDigit_of_mem_toDigits (by decide) (by decide) hd,
    Nat.ofDigitChars_ten_toDigits⟩, h⟩

/-! ## Addresses -/

/-- A field of an address and its value. -/
abbrev IsOctet (field : List Char) (octet : UInt8) : Prop := IsNumber (2^8) field octet.toNat

/-- A field is parsed exactly if it spells an octet. -/
theorem parseOctet_eq_some_iff {field : List Char} {octet : UInt8} :
    parseOctet field = some octet ↔ IsOctet field octet := by
  rw [parseOctet, Option.map_eq_some_iff]
  constructor
  · rintro ⟨n, hn, rfl⟩
    have hnumber := fromStrRadix_eq_some_iff.1 hn
    rwa [IsOctet, UInt8.toNat_ofNat_of_lt' hnumber.lt]
  · intro h
    exact ⟨octet.toNat, fromStrRadix_eq_some_iff.2 h, UInt8.ofNat_toNat⟩

/-- There is no dot in a field. -/
theorem dot_notMem_of_isOctet {field : List Char} {octet : UInt8} (h : IsOctet field octet) :
    '.' ∉ field := by
  obtain ⟨digits, htext, -, hdigits, -⟩ := h.spelled
  have hdot : '.' ∉ digits := fun hmem => absurd (hdigits '.' hmem) (by decide)
  rcases htext with rfl | rfl
  · exact hdot
  · exact List.not_mem_cons_of_ne_of_not_mem (by decide) hdot

/-- The text of four fields. -/
def dotted (fields : List (List Char)) : List Char := ['.'].intercalate fields

/-- The accepted texts are those of four fields, and the address is their values. -/
theorem parseIp_eq_some {s : List Char} {ip : Ipv4} :
    parseIp s = some ip ↔ ∃ fa fb fc fd, s = dotted [fa, fb, fc, fd] ∧
      IsOctet fa ip[0] ∧ IsOctet fb ip[1] ∧ IsOctet fc ip[2] ∧ IsOctet fd ip[3] := by
  constructor
  · intro h
    unfold parseIp at h
    split at h
    · rename_i fa fb fc fd hsplit
      obtain ⟨a, ha, h⟩ := Option.bind_eq_some_iff.1 h
      obtain ⟨b, hb, h⟩ := Option.bind_eq_some_iff.1 h
      obtain ⟨c, hc, h⟩ := Option.bind_eq_some_iff.1 h
      obtain ⟨d, hd, h⟩ := Option.bind_eq_some_iff.1 h
      cases h
      refine ⟨fa, fb, fc, fd, ?_, parseOctet_eq_some_iff.1 ha, parseOctet_eq_some_iff.1 hb,
        parseOctet_eq_some_iff.1 hc, parseOctet_eq_some_iff.1 hd⟩
      rw [dotted, ← hsplit]
      exact (List.intercalate_splitOn '.').symm
    · cases h
  · rintro ⟨fa, fb, fc, fd, rfl, ha, hb, hc, hd⟩
    have hsplit : (dotted [fa, fb, fc, fd]).splitOn '.' = [fa, fb, fc, fd] := by
      apply List.splitOn_intercalate
      · intro field hfield
        simp only [List.mem_cons, List.not_mem_nil, or_false] at hfield
        obtain rfl | rfl | rfl | rfl := hfield
        · exact dot_notMem_of_isOctet ha
        · exact dot_notMem_of_isOctet hb
        · exact dot_notMem_of_isOctet hc
        · exact dot_notMem_of_isOctet hd
      · exact List.cons_ne_nil _ _
    unfold parseIp
    rw [hsplit]
    dsimp only
    rw [parseOctet_eq_some_iff.2 ha, parseOctet_eq_some_iff.2 hb, parseOctet_eq_some_iff.2 hc,
      parseOctet_eq_some_iff.2 hd]
    refine congrArg some (Vector.ext fun i hi => ?_)
    match i, hi with
    | 0, _ => rfl
    | 1, _ => rfl
    | 2, _ => rfl
    | 3, _ => rfl

/-- The text of an address, as the standard library writes it. -/
def ipText (ip : Ipv4) : List Char :=
  dotted (ip.toList.map fun octet => Nat.toDigits 10 octet.toNat)

/-- The fields of the text of an address. -/
theorem ipText_eq (ip : Ipv4) : ipText ip = dotted [Nat.toDigits 10 ip[0].toNat,
    Nat.toDigits 10 ip[1].toNat, Nat.toDigits 10 ip[2].toNat, Nat.toDigits 10 ip[3].toNat] := by
  obtain ⟨⟨l⟩, hl⟩ := ip
  match l, hl with
  | [a, b, c, d], _ => rfl

/-- An address is read back from its text. -/
theorem parseIp_ipText (ip : Ipv4) : parseIp (ipText ip) = some ip :=
  parseIp_eq_some.2 ⟨_, _, _, _, ipText_eq ip, isNumber_toDigits (UInt8.toNat_lt _),
    isNumber_toDigits (UInt8.toNat_lt _), isNumber_toDigits (UInt8.toNat_lt _),
    isNumber_toDigits (UInt8.toNat_lt _)⟩

/-- An address is accepted in the texts of four fields that are its values, and only in these, and
one of them is the text that is written for it. -/
theorem parseIp_exact (s : List Char) (ip : Ipv4) :
    (parseIp s = some ip ↔ ∃ fa fb fc fd, s = dotted [fa, fb, fc, fd] ∧
      IsOctet fa ip[0] ∧ IsOctet fb ip[1] ∧ IsOctet fc ip[2] ∧ IsOctet fd ip[3]) ∧
      parseIp (ipText ip) = some ip := ⟨parseIp_eq_some, parseIp_ipText ip⟩

-- Signs and leading zeros are accepted, and other bases and spaces are not.
example : parseIp "+1.002.3.4".toList = some #v[1, 2, 3, 4] ∧ parseIp "0x1.2.3.4".toList = none ∧
    parseIp " 1.2.3.4".toList = none := by decide

/-! ## Backoff -/

/-- The delays double from 5 seconds on up to a minute. -/
theorem backoffSecs_eq (attempt : ℕ) : backoffSecs attempt =
    if attempt ≤ 1 then 5 else if attempt = 2 then 10 else if attempt = 3 then 20
    else if attempt = 4 then 40 else 60 := by
  unfold backoffSecs
  split_ifs with h1 h2 h3 h4
  · rw [show attempt - 1 = 0 by omega]
    rfl
  · rw [h2]
    rfl
  · rw [h3]
    rfl
  · rw [h4]
    rfl
  · rw [Nat.min_eq_right (show 4 ≤ attempt - 1 by omega)]
    rfl

end Launa.Core
