import Mathlib.Logic.Basic
import ThingHub.Proofs.Text.Decimal
import ThingHub.Settings.Address

/-! # Settings from an address

The address of settings gives the settings back, whatever colons stand in the name of the host.
Any address with a colon is cut at its last one: in front of it stands the host, and behind it a
port, or something that is no port and for which the usual port is taken. -/

namespace ThingHub

open Text

/-! ## Ports -/

/-- A number as ports are written: decimal digits, after a plus sign or none. -/
inductive PortNumber (text : String) (n : Nat) : Prop
  | plain : Decimal text.toList n → PortNumber text n
  | signed {digits : List Char} :
      text.toList = '+' :: digits → Decimal digits n → PortNumber text n

/-- The port that decimal digits make, if they make one. -/
def portOf? (digits : List Char) : Option UInt16 :=
  if digits.isEmpty || !digits.all Char.isDigit then none
  else if Nat.ofDigitChars 10 digits 0 < UInt16.size then
    some (UInt16.ofNat (Nat.ofDigitChars 10 digits 0))
  else none

section Ports

variable {text : String} {digits : List Char} {port : UInt16} {n : Nat}

theorem portOf?_eq_some_iff : portOf? digits = some port ↔ Decimal digits port.toNat := by
  have hguard : (digits.isEmpty || !digits.all Char.isDigit) = true ↔
      ¬ (digits ≠ [] ∧ ∀ d ∈ digits, d.isDigit = true) := by
    rw [not_and_or, Bool.or_eq_true, List.isEmpty_iff, Bool.not_eq_true', List.all_eq_false]
    simp
  unfold portOf?
  by_cases hdigits : digits ≠ [] ∧ ∀ d ∈ digits, d.isDigit = true
  · have hdecimal : Decimal digits port.toNat ↔ Nat.ofDigitChars 10 digits 0 = port.toNat :=
      ⟨Decimal.value, fun hvalue => ⟨hdigits.1, hdigits.2, hvalue⟩⟩
    rw [if_neg (mt hguard.mp (not_not.mpr hdigits)), hdecimal]
    split
    · rename_i hless
      rw [Option.some.injEq, ← UInt16.toNat_inj, UInt16.toNat_ofNat_of_lt' hless]
    · rename_i hless
      exact iff_of_false nofun fun hvalue => hless (hvalue ▸ port.toNat_lt)
  · rw [if_pos (hguard.mpr hdigits)]
    exact iff_of_false nofun fun h => hdigits ⟨h.ne_nil, h.isDigit⟩

theorem foldl_eq_ofDigitChars (digits : List Char) :
    digits.foldl (fun n d => n * 10 + (d.toNat - '0'.toNat)) 0 = Nat.ofDigitChars 10 digits 0 := by
  simp [Nat.ofDigitChars, Nat.mul_comm]

theorem parsePort?_signed (h : text.toList = '+' :: digits) : parsePort? text = portOf? digits := by
  simp only [parsePort?, h, foldl_eq_ofDigitChars]
  rfl

theorem parsePort?_plain (h : ∀ digits, text.toList ≠ '+' :: digits) :
    parsePort? text = portOf? text.toList := by
  unfold parsePort?
  split
  · rename_i digits hsigned
    exact absurd hsigned (h digits)
  · simp only [foldl_eq_ofDigitChars]
    rfl

theorem portNumber_signed_iff (h : text.toList = '+' :: digits) :
    PortNumber text n ↔ Decimal digits n := by
  constructor
  · rintro (hplain | ⟨hsigned, hdecimal⟩)
    · rw [h] at hplain
      exact absurd List.mem_cons_self (hplain.not_mem rfl)
    · cases h.symm.trans hsigned
      exact hdecimal
  · exact .signed h

theorem portNumber_plain_iff (h : ∀ digits, text.toList ≠ '+' :: digits) :
    PortNumber text n ↔ Decimal text.toList n := by
  constructor
  · rintro (hplain | ⟨hsigned, -⟩)
    · exact hplain
    · exact absurd hsigned (h _)
  · exact .plain

/-- A text is read as a port just if it is a number that a port can be. -/
theorem parsePort?_eq_some_iff : parsePort? text = some port ↔ PortNumber text port.toNat := by
  by_cases h : ∃ digits, text.toList = '+' :: digits
  · obtain ⟨digits, h⟩ := h
    rw [parsePort?_signed h, portOf?_eq_some_iff, portNumber_signed_iff h]
  · have h := not_exists.mp h
    rw [parsePort?_plain h, portOf?_eq_some_iff, portNumber_plain_iff h]

theorem parsePort?_repr (port : UInt16) : parsePort? port.toNat.repr = some port :=
  parsePort?_eq_some_iff.mpr (.plain (decimal_repr port.toNat))

theorem parsePort?_of_portNumber (h : PortNumber text n) (hn : n ≤ 65535) :
    parsePort? text = some (UInt16.ofNat n) := by
  have hvalue : (UInt16.ofNat n).toNat = n := UInt16.toNat_ofNat_of_lt' (Nat.lt_succ_of_le hn)
  apply parsePort?_eq_some_iff.mpr
  rwa [hvalue]

theorem parsePort?_eq_none (h : ∀ n, PortNumber text n → 65535 < n) : parsePort? text = none := by
  cases hport : parsePort? text with
  | none => rfl
  | some port =>
      have hlarge := h _ (parsePort?_eq_some_iff.mp hport)
      exact absurd port.toNat_lt (Nat.not_lt.mpr hlarge)

end Ports

/-! ## Addresses -/

namespace ConnectionSettings

theorem ofAddress_append (host : String) {tail : String} (h : ':' ∉ tail.toList) :
    ofAddress (some (host ++ ":" ++ tail)) none =
      forBroker host ((parsePort? tail).getD defaultPort) := by
  have hcut : cutLast? ':' (host ++ ":" ++ tail) = some (host, tail) :=
    cutLast?_eq_some_iff.mpr ⟨rfl, h⟩
  simp only [ofAddress, Option.getD_some, splitAddress, hcut]

theorem ofAddress_address (host : String) (port : UInt16) :
    ofAddress (some (forBroker host port).address) none = forBroker host port := by
  have hfree : ':' ∉ port.toNat.repr.toList := (decimal_repr port.toNat).not_mem rfl
  have hread := ofAddress_append host hfree
  rwa [parsePort?_repr, Option.getD_some] at hread

/-- The address of settings for a broker gives these settings. Of any address with a colon, what
stands in front of the last one is the host; what stands behind it is the port if it is a number
that a port can be, written in digits and with a plus sign or without, and else the port is 1883.
All other settings are the usual ones, but for the certificate file if one is named. -/
theorem ofAddress_reads_address :
    (∀ host port, ofAddress (some (forBroker host port).address) none = forBroker host port) ∧
    (∀ address : String, ':' ∈ address.toList →
      ∃ host tail port, address = host ++ ":" ++ tail ∧ ':' ∉ tail.toList ∧
        ofAddress (some address) none = forBroker host port ∧
        (∀ n, PortNumber tail n → n ≤ 65535 → port.toNat = n) ∧
        ((∀ n, PortNumber tail n → 65535 < n) → port = 1883)) ∧
    ∀ address path, ofAddress address (some path) = (ofAddress address none).withCaCert path := by
  refine ⟨ofAddress_address, ?_, fun _ _ => rfl⟩
  intro address hcolon
  obtain ⟨host, tail, hcut⟩ := exists_cutLast?_eq_some hcolon
  obtain ⟨rfl, hfree⟩ := cutLast?_eq_some_iff.mp hcut
  refine ⟨host, tail, (parsePort? tail).getD defaultPort, rfl, hfree, ofAddress_append host hfree,
    ?_, ?_⟩
  · intro n hn hsmall
    rw [parsePort?_of_portNumber hn hsmall, Option.getD_some]
    exact UInt16.toNat_ofNat_of_lt' (Nat.lt_succ_of_le hsmall)
  · intro hnone
    rw [parsePort?_eq_none hnone]
    rfl

/-- Colons in the host, and a port with a plus sign and a leading zero. -/
theorem ofAddress_reads_address_colons :
    ':' ∈ "fe80::1:+08883".toList ∧
    ofAddress (some "fe80::1:+08883") none = forBroker "fe80::1" 8883 := by
  refine ⟨by decide, ?_⟩
  obtain ⟨-, hread, -⟩ := ofAddress_reads_address
  obtain ⟨host, tail, port, haddress, hfree, hsettings, hport, -⟩ :=
    hread "fe80::1:+08883" (by decide)
  have hcut : cutLast? ':' "fe80::1:+08883" = some (host, tail) :=
    cutLast?_eq_some_iff.mpr ⟨haddress, hfree⟩
  have hparts : cutLast? ':' "fe80::1:+08883" = some ("fe80::1", "+08883") :=
    cutLast?_eq_some_iff.mpr ⟨by decide, by decide⟩
  rw [hparts, Option.some.injEq, Prod.mk.injEq] at hcut
  obtain ⟨rfl, rfl⟩ := hcut
  have hnumber : PortNumber "+08883" 8883 :=
    .signed rfl ⟨by decide, List.all_eq_true.mp rfl, rfl⟩
  have hvalue : port = 8883 := UInt16.toNat_inj.mp (hport 8883 hnumber (by decide))
  rw [hsettings, hvalue]

example : ofAddress (some "broker:65536") none = forBroker "broker" 1883 := by decide

end ConnectionSettings

end ThingHub
