import Sbctl.Lib.Percent

/-!
# Internet addresses as text

The reader of addresses: four decimal groups, or up to eight hexadecimal groups
of which a run of zeros may be left out and the last two may be an address of
the first kind.

* `mem_v4`, `mem_v6`: the characters an address is written with.
-/

namespace IpText

open Text

inductive Address where
  | v4 (octets : List Nat)
  | v6 (groups : List Nat)
  deriving DecidableEq

/-! ## The reader -/

/-- Digits up to a bound on their number and on their value. -/
def readDigits (digit : Char → Option Nat) (radix bound maxDigits : Nat) :
    Nat → Nat → List Char → Option (Nat × Nat × List Char)
  | result, count, [] => some (result, count, [])
  | result, count, c :: cs =>
    match digit c with
    | none => some (result, count, c :: cs)
    | some d =>
      if bound < result * radix + d ∨ maxDigits < count + 1 then none
      else readDigits digit radix bound maxDigits (result * radix + d) (count + 1) cs

def readNumber (digit : Char → Option Nat) (radix bound maxDigits : Nat) (zeroPrefix : Bool)
    (cs : List Char) : Option (Nat × List Char) :=
  match readDigits digit radix bound maxDigits 0 0 cs with
  | none => none
  | some (n, count, rest) =>
    if count = 0 then none
    else if ¬ zeroPrefix ∧ cs.head? = some '0' ∧ 1 < count then none
    else some (n, rest)

/-- All groups but the first come after a separator. -/
def readSeparator {α : Type} (sep : Char) (index : Nat)
    (inner : List Char → Option (α × List Char)) (cs : List Char) : Option (α × List Char) :=
  if index = 0 then inner cs
  else match cs with
    | [] => none
    | c :: cs => if c = sep then inner cs else none

def readOctets : Nat → Nat → List Char → Option (List Nat × List Char)
  | 0, _, cs => some ([], cs)
  | n + 1, index, cs => do
    let (octet, cs) ← readSeparator '.' index (readNumber digitValue 10 255 3 false) cs
    let (octets, cs) ← readOctets n (index + 1) cs
    return (octet :: octets, cs)

def readIpv4Addr (cs : List Char) : Option (List Nat × List Char) := readOctets 4 0 cs

/-- As many groups as there are, and whether the last two were an address of
four octets. -/
def readGroups (limit : Nat) : Nat → Nat → List Char → List Nat × Bool × List Char
  | 0, _, cs => ([], false, cs)
  | n + 1, index, cs =>
    match (if index < limit - 1 then readSeparator ':' index readIpv4Addr cs else none) with
    | some (octets, rest) =>
      ([octets.getD 0 0 * 256 + octets.getD 1 0, octets.getD 2 0 * 256 + octets.getD 3 0],
        true, rest)
    | none =>
      match readSeparator ':' index (readNumber hexValue 16 65535 4 true) cs with
      | none => ([], false, cs)
      | some (group, rest) =>
        let (groups, ipv4, rest) := readGroups limit n (index + 1) rest
        (group :: groups, ipv4, rest)

def readIpv6Addr (cs : List Char) : Option (List Nat × List Char) :=
  let (head, ipv4, rest) := readGroups 8 8 0 cs
  if head.length = 8 then some (head, rest)
  else if ipv4 then none
  else match rest with
    | ':' :: ':' :: rest =>
      let limit := 8 - (head.length + 1)
      let (tail, _, rest) := readGroups limit limit 0 rest
      some (head ++ List.replicate (8 - head.length - tail.length) 0 ++ tail, rest)
    | _ => none

/-- The whole text is one address. -/
def parse (s : String) : Option Address :=
  match readIpv4Addr s.toList with
  | some (octets, rest) => if rest = [] then some (.v4 octets) else none
  | none =>
    match readIpv6Addr s.toList with
    | some (groups, rest) => if rest = [] then some (.v6 groups) else none
    | none => none

/-! ## What it consumes -/

/-- The text before the rest has only characters of one kind. -/
def Consumes (p : Char → Prop) (cs rest : List Char) : Prop :=
  ∃ used, cs = used ++ rest ∧ ∀ c ∈ used, p c

theorem Consumes.refl {p : Char → Prop} (cs : List Char) : Consumes p cs cs :=
  ⟨[], rfl, by simp⟩

theorem Consumes.cons {p : Char → Prop} {c : Char} {cs rest : List Char} (hc : p c)
    (h : Consumes p cs rest) : Consumes p (c :: cs) rest := by
  obtain ⟨used, rfl, hused⟩ := h
  exact ⟨c :: used, rfl, List.forall_mem_cons.mpr ⟨hc, hused⟩⟩

theorem Consumes.trans {p : Char → Prop} {cs middle rest : List Char}
    (h : Consumes p cs middle) (h' : Consumes p middle rest) : Consumes p cs rest := by
  obtain ⟨used, rfl, hused⟩ := h
  obtain ⟨used', rfl, hused'⟩ := h'
  refine ⟨used ++ used', (List.append_assoc _ _ _).symm, fun c hc => ?_⟩
  rcases List.mem_append.mp hc with hc | hc
  · exact hused c hc
  · exact hused' c hc

theorem Consumes.mono {p q : Char → Prop} {cs rest : List Char} (hpq : ∀ c, p c → q c)
    (h : Consumes p cs rest) : Consumes q cs rest := by
  obtain ⟨used, hcs, hused⟩ := h
  exact ⟨used, hcs, fun c hc => hpq c (hused c hc)⟩

theorem Consumes.forall_mem {p : Char → Prop} {cs : List Char} (h : Consumes p cs []) :
    ∀ c ∈ cs, p c := by
  obtain ⟨used, rfl, hused⟩ := h
  simpa using hused

theorem readDigits_consumes {digit : Char → Option Nat} {radix bound maxDigits result count n m : Nat}
    {cs rest : List Char}
    (h : readDigits digit radix bound maxDigits result count cs = some (n, m, rest)) :
    Consumes (fun c => (digit c).isSome) cs rest := by
  induction cs generalizing result count with
  | nil =>
    cases h
    exact .refl []
  | cons c cs ih =>
    rw [readDigits] at h
    cases hdigit : digit c with
    | none =>
      rw [hdigit] at h
      cases h
      exact .refl _
    | some d =>
      rw [hdigit] at h
      simp only at h
      split at h
      · cases h
      · exact .cons (by simp [hdigit]) (ih h)

theorem readNumber_consumes {digit : Char → Option Nat} {radix bound maxDigits n : Nat}
    {zeroPrefix : Bool} {cs rest : List Char}
    (h : readNumber digit radix bound maxDigits zeroPrefix cs = some (n, rest)) :
    Consumes (fun c => (digit c).isSome) cs rest := by
  unfold readNumber at h
  split at h
  · cases h
  · rename_i hdigits
    split at h
    · cases h
    · split at h
      · cases h
      · cases h
        exact readDigits_consumes hdigits

theorem readSeparator_consumes {α : Type} {p : Char → Prop} {sep : Char} {index : Nat}
    {inner : List Char → Option (α × List Char)} {cs rest : List Char} {a : α} (hsep : p sep)
    (hinner : ∀ cs rest a, inner cs = some (a, rest) → Consumes p cs rest)
    (h : readSeparator sep index inner cs = some (a, rest)) : Consumes p cs rest := by
  unfold readSeparator at h
  split at h
  · exact hinner cs rest a h
  · split at h
    · cases h
    · split at h
      · rename_i hc
        subst hc
        exact .cons hsep (hinner _ _ _ h)
      · cases h

/-- A decimal digit or a dot. -/
def isV4Char (c : Char) : Prop := (digitValue c).isSome ∨ c = '.'

/-- A hexadecimal digit, a dot or a colon. -/
def isV6Char (c : Char) : Prop := (hexValue c).isSome ∨ c = '.' ∨ c = ':'

theorem isV6Char_of_isV4Char {c : Char} (h : isV4Char c) : isV6Char c := by
  rcases h with hdigit | rfl
  · refine .inl ?_
    unfold digitValue at hdigit
    split at hdigit
    · rename_i hc
      rw [hexValue, if_pos hc]
      rfl
    · cases hdigit
  · exact .inr (.inl rfl)

theorem readOctets_consumes {n index : Nat} {cs rest : List Char} {octets : List Nat}
    (h : readOctets n index cs = some (octets, rest)) : Consumes isV4Char cs rest := by
  induction n generalizing index cs octets with
  | zero =>
    cases h
    exact .refl _
  | succ n ih =>
    rw [readOctets] at h
    simp only [Option.bind_eq_bind, Option.bind_eq_some_iff, Prod.exists, Option.pure_def,
      Option.some.injEq, Prod.mk.injEq] at h
    obtain ⟨octet, middle, hoctet, others, rest', hothers, -, rfl⟩ := h
    refine Consumes.trans (readSeparator_consumes (.inr rfl) ?_ hoctet) (ih hothers)
    intro cs rest a hnumber
    exact (readNumber_consumes hnumber).mono fun _ => .inl

theorem readGroups_consumes {limit n index : Nat} {cs rest : List Char} {groups : List Nat}
    {ipv4 : Bool} (h : readGroups limit n index cs = (groups, ipv4, rest)) :
    Consumes isV6Char cs rest := by
  induction n generalizing index cs groups with
  | zero =>
    cases h
    exact .refl _
  | succ n ih =>
    rw [readGroups] at h
    split at h
    · rename_i octets rest' hipv4
      cases h
      split at hipv4
      · refine readSeparator_consumes (.inr (.inr rfl)) ?_ hipv4
        intro cs rest a hoctets
        exact (readOctets_consumes hoctets).mono fun _ => isV6Char_of_isV4Char
      · cases hipv4
    · split at h
      · cases h
        exact .refl _
      · rename_i group middle hgroup
        cases hothers : readGroups limit n (index + 1) middle with
        | mk others flags =>
          obtain ⟨ipv4', rest'⟩ := flags
          rw [hothers] at h
          cases h
          refine Consumes.trans (readSeparator_consumes (.inr (.inr rfl)) ?_ hgroup) (ih hothers)
          intro cs rest a hnumber
          exact (readNumber_consumes hnumber).mono fun _ => .inl

theorem readIpv6Addr_consumes {cs rest : List Char} {groups : List Nat}
    (h : readIpv6Addr cs = some (groups, rest)) : Consumes isV6Char cs rest := by
  unfold readIpv6Addr at h
  cases hhead : readGroups 8 8 0 cs with
  | mk head flags =>
    obtain ⟨ipv4, middle⟩ := flags
    rw [hhead] at h
    simp only at h
    split at h
    · cases h
      exact readGroups_consumes hhead
    · split at h
      · cases h
      · split at h
        · rename_i rest'
          cases htail : readGroups (8 - (head.length + 1)) (8 - (head.length + 1)) 0 rest' with
          | mk tail flags =>
            obtain ⟨ipv4', last⟩ := flags
            rw [htail] at h
            cases h
            have hcolon : isV6Char ':' := .inr (.inr rfl)
            exact (readGroups_consumes hhead).trans
              (.cons hcolon (.cons hcolon (readGroups_consumes htail)))
        · cases h

theorem mem_v4 {s : String} {octets : List Nat} (h : parse s = some (.v4 octets)) :
    ∀ c ∈ s.toList, isV4Char c := by
  unfold parse at h
  split at h
  · rename_i hread
    split at h
    · rename_i hrest
      rw [hrest] at hread
      exact (readOctets_consumes hread).forall_mem
    · cases h
  · split at h
    · split at h <;> cases h
    · cases h

theorem mem_v6 {s : String} {groups : List Nat} (h : parse s = some (.v6 groups)) :
    ∀ c ∈ s.toList, isV6Char c := by
  unfold parse at h
  split at h
  · split at h <;> cases h
  · split at h
    · rename_i hread
      split at h
      · rename_i hrest
        rw [hrest] at hread
        exact (readIpv6Addr_consumes hread).forall_mem
      · cases h
    · cases h

example : parse "2001:db8::1" = some (.v6 [0x2001, 0xdb8, 0, 0, 0, 0, 0, 1]) := by decide

example : parse "::ffff:192.0.2.1" = some (.v6 [0, 0, 0, 0, 0, 0xffff, 0xc000, 0x201]) := by
  decide

example : parse "192.0.02.1" = none := by decide

end IpText
