import Atlaso.Library.IpAddress
import Atlaso.Library.TextFields

/-!
IP networks as Python's `ipaddress` reads them with `strict=False`: the host bits of the
address are cleared. The scope of an IPv6 address is not part of its network.
-/

namespace Atlaso.Library.IpNetwork

open IpAddress Numerals TextFields

structure Network where
  family : Family
  (bits leading : Nat)
  deriving DecidableEq, Repr

def Network.contains (network : Network) (address : Address) : Bool :=
  address.family = network.family &&
    address.number / 2 ^ (network.family.width - network.bits) = network.leading

def wholeFamily (family : Family) : Network := ⟨family, 0, 0⟩

def networkOf (address : Address) (bits : Nat) : Network :=
  ⟨address.family, bits, address.number / 2 ^ (address.family.width - bits)⟩

theorem contains_family {network : Network} {address : Address}
    (inside : network.contains address = true) : address.family = network.family :=
  of_decide_eq_true (Bool.and_eq_true_iff.mp inside).1

theorem contains_whole (address : Address) :
    (wholeFamily address.family).contains address = true := by
  have bound : address.number < 2 ^ address.family.width := by
    cases address with
    | v4 value => exact value.isLt
    | v6 value => exact value.isLt
  rw [Network.contains, Bool.and_eq_true, decide_eq_true_eq, decide_eq_true_eq]
  exact ⟨rfl, Nat.div_eq_of_lt bound⟩

/-! ### Reading -/

def prefixLength (family : Family) (text : List Char) : Option Nat :=
  if text.isEmpty then none
  else
    match numeralValue 10 0 text with
    | some bits => if bits ≤ family.width then some bits else none
    | none => none

def maskLength (mask : Nat) : Option Nat :=
  (List.range 33).find? fun bits => mask = 2 ^ 32 - 2 ^ (32 - bits)

/-- A netmask or a hostmask in dotted form. -/
def dottedMask (text : List Char) : Option Nat :=
  match parseV4 text with
  | none => none
  | some mask =>
    match maskLength mask.toNat with
    | some bits => some bits
    | none => maskLength (2 ^ 32 - 1 - mask.toNat)

def networkV4 (address : List Char) (mask : Option (List Char)) : Option Network :=
  match parseV4 address with
  | none => none
  | some value =>
    match mask with
    | none => some (networkOf (.v4 value) 32)
    | some mask => ((prefixLength .v4 mask).or (dottedMask mask)).map (networkOf (.v4 value))

def unscoped (address : List Char) : Option (List Char) :=
  match Atlaso.Library.TextFields.partition '%' address with
  | (text, none) => some text
  | (text, some scope) => if scope.isEmpty ∨ '%' ∈ scope then none else some text

def networkV6 (address : List Char) (mask : Option (List Char)) : Option Network :=
  match (unscoped address).bind parseV6 with
  | none => none
  | some value =>
    match mask with
    | none => some (networkOf (.v6 value) 128)
    | some mask => (prefixLength .v6 mask).map (networkOf (.v6 value))

def ipNetwork (text : String) : Option Network :=
  match splitOn '/' text.toList with
  | [address] => (networkV4 address none).or (networkV6 address none)
  | [address, mask] => (networkV4 address (some mask)).or (networkV6 address (some mask))
  | _ => none

/-! ### How a network starts -/

/-- A character that starts neither an octet nor a hextet, and separates nothing. -/
def Foreign (c : Char) : Prop :=
  c ∉ ['/', '.', ':', '%'] ∧ digitValue 10 c = none ∧ digitValue 16 c.toLower = none

theorem split_on_head {separator c : Char} (differs : c ≠ separator) (rest : List Char) :
    ∃ first others, splitOn separator (c :: rest) = (c :: first) :: others := by
  rw [splitOn, if_neg differs]
  cases splitOn separator rest with
  | nil => exact ⟨[], [], rfl⟩
  | cons first others => exact ⟨first, others, rfl⟩

section Foreign

variable {c : Char} (foreign : Foreign c)

include foreign

theorem parse_octet_foreign (rest : List Char) : parseOctet (c :: rest) = none := by
  rw [parseOctet]
  split
  · rfl
  · rw [numeralValue, foreign.2.1]
    rfl

theorem parse_v4_foreign (rest : List Char) : parseV4 (c :: rest) = none := by
  have differs : c ≠ '.' := fun same => foreign.1 (by simp [same])
  obtain ⟨first, others, split⟩ := split_on_head differs rest
  rw [parseV4, split]
  split
  · next shape =>
      obtain ⟨rfl, rfl⟩ := List.cons.inj shape
      rw [parse_octet_foreign foreign]
      rfl
  · rfl

theorem parse_hextet_foreign (rest : List Char) : parseHextet (c :: rest) = none := by
  rw [parseHextet]
  split
  · rfl
  · rw [List.map_cons, numeralValue, foreign.2.2]
    rfl

theorem hextet_parts_foreign {rest : List Char} {parts : List (List Char)}
    (found : hextetParts (c :: rest) = some parts) : ∃ first others, parts = (c :: first) :: others := by
  have differs : c ≠ ':' := fun same => foreign.1 (by simp [same])
  obtain ⟨first, others, shape⟩ := split_on_head differs rest
  rw [hextetParts, shape] at found
  split at found
  · cases found
  · next long =>
      split at found
      · split at found
        · split at found
          · obtain rfl := Option.some.inj found
            cases others with
            | nil => simp at long
            | cons second others => exact ⟨first, _, rfl⟩
          · cases found
        · obtain rfl := Option.some.inj found
          exact ⟨first, others, rfl⟩
      · cases found

omit foreign in
theorem hextet_halves_foreign {first : List Char} {others high low : List (List Char)}
    (found : hextetHalves ((c :: first) :: others) = some (high, low)) :
    ∃ more, high = (c :: first) :: more := by
  rw [hextetHalves] at found
  split at found
  · split at found
    · exact ⟨others, (Prod.mk.inj (Option.some.inj found)).1.symm⟩
    · cases found
  · next skip shape =>
      have positive : 0 < skip := by
        have inside : skip ∈ emptyInside ((c :: first) :: others) := by
          rw [shape]
          exact List.mem_singleton_self skip
        exact (of_decide_eq_true (List.mem_filter.mp inside).2).1
      obtain ⟨position, rfl⟩ := Nat.exists_eq_succ_of_ne_zero positive.ne'
      dsimp only at found
      rw [if_neg (by simp : ¬((c :: first) :: others).head? = some [])] at found
      have taken : ∀ {blocked : Prop} [Decidable blocked] {tail : List (List Char)},
          (if blocked then none else some (((c :: first) :: others).take (position + 1), tail)) =
            some (high, low) → ∃ more, high = (c :: first) :: more := by
        intro blocked _ tail chosen
        split at chosen
        · cases chosen
        · exact ⟨others.take position, (Prod.mk.inj (Option.some.inj chosen)).1.symm⟩
      exact taken found
  · cases found

theorem parse_v6_foreign (rest : List Char) : parseV6 (c :: rest) = none := by
  rw [parseV6]
  cases found : hextetParts (c :: rest) with
  | none => rfl
  | some parts =>
    obtain ⟨first, others, rfl⟩ := hextet_parts_foreign foreign found
    dsimp only [Option.bind_eq_bind, Option.bind]
    split
    · rfl
    · cases halves : hextetHalves ((c :: first) :: others) with
      | none => rfl
      | some pair =>
        obtain ⟨high, low⟩ := pair
        obtain ⟨more, rfl⟩ := hextet_halves_foreign halves
        dsimp only
        rw [List.mapM_cons, parse_hextet_foreign foreign]
        rfl

theorem unscoped_foreign {rest address : List Char}
    (found : unscoped (c :: rest) = some address) : ∃ more, address = c :: more := by
  have differs : c ≠ '%' := fun same => foreign.1 (by simp [same])
  rw [unscoped] at found
  split at found
  · next text shape =>
      obtain rfl := Option.some.inj found
      rw [Atlaso.Library.TextFields.partition] at shape
      split at shape
      · exact ⟨rest, (Prod.mk.inj shape).1.symm⟩
      · cases (Prod.mk.inj shape).2
  · next text scope shape =>
      split at found
      · cases found
      · obtain rfl := Option.some.inj found
        rw [Atlaso.Library.TextFields.partition] at shape
        split at shape
        · cases (Prod.mk.inj shape).2
        · rw [List.takeWhile_cons_of_pos (by simpa using differs)] at shape
          exact ⟨_, (Prod.mk.inj shape).1.symm⟩

theorem ip_network_foreign (rest : List Char) : ipNetwork (String.ofList (c :: rest)) = none := by
  have differs : c ≠ '/' := fun same => foreign.1 (by simp [same])
  obtain ⟨first, others, shape⟩ := split_on_head differs rest
  have noV4 : ∀ mask, networkV4 (c :: first) mask = none := by
    intro mask
    rw [networkV4, parse_v4_foreign foreign]
  have noV6 : ∀ mask, networkV6 (c :: first) mask = none := by
    intro mask
    have none : (unscoped (c :: first)).bind parseV6 = none := by
      cases found : unscoped (c :: first) with
      | none => rfl
      | some address =>
        obtain ⟨more, rfl⟩ := unscoped_foreign foreign found
        exact parse_v6_foreign foreign more
    rw [networkV6, none]
  rw [ipNetwork, String.toList_ofList, shape]
  split
  · next single =>
      obtain ⟨rfl, _⟩ := List.cons.inj single
      rw [noV4, noV6]
      rfl
  · next pair =>
      obtain ⟨rfl, _⟩ := List.cons.inj pair
      rw [noV4, noV6]
      rfl
  · rfl

end Foreign

example : ipNetwork "192.168.50.1/24" = some ⟨.v4, 24, 0xc0a832⟩ := by decide

example : ipNetwork "192.168.50.1/255.255.255.0" = ipNetwork "192.168.50.0/0.0.0.255" := by
  decide

example : ipNetwork "fd00:50::1%eth0/64" = some ⟨.v6, 64, 0xfd00005000000000⟩ := by decide

end Atlaso.Library.IpNetwork
