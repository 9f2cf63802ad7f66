import Mathlib.Data.List.Basic
import Mathlib.Tactic

/-!
# Decoding a stream of self-delimiting items

A `StreamDecoder` reads one item off the front of a list of symbols, or finds that it cannot: the
item is incomplete or malformed. It must consume something and must not look past the item that it
returns. `run` takes items until the decoder stops, and returns them with what is left.

`run_append` is the law of incremental parsing: to decode a stream that arrives in two parts, decode
the first, and then what it left followed by the second. `Codec` adds an encoder whose output the
decoder reads back; it then reads no proper prefix of it (`dec_torn`). `run_encodeAll_append` and
`run_torn` say what is read from a file of encoded items, whole or cut off at any point.
-/

variable {β ρ : Type*}

/-- A decoder of one item from the front of a stream. -/
structure StreamDecoder (β ρ : Type*) where
  /-- The first item and the symbols after it, or `none` when no item can be read. -/
  dec : List β → Option (ρ × List β)
  /-- An item takes at least one symbol. -/
  shrinks : ∀ {bs r rest}, dec bs = some (r, rest) → rest.length < bs.length
  /-- An item does not depend on the symbols after it. -/
  stable : ∀ {bs r rest} (more : List β), dec bs = some (r, rest) →
    dec (bs ++ more) = some (r, rest ++ more)

namespace StreamDecoder

variable (D : StreamDecoder β ρ)

/-- `run` with a bound on the number of items. -/
def runFuel : ℕ → List β → List ρ × List β
  | 0, bs => ([], bs)
  | n + 1, bs =>
    match D.dec bs with
    | none => ([], bs)
    | some (r, rest) => (r :: (runFuel n rest).1, (runFuel n rest).2)

/-- The items that can be read, and the symbols that are left where the decoder stops. -/
def run (bs : List β) : List ρ × List β := D.runFuel bs.length bs

/-- There are never more items than symbols, so a larger bound changes nothing. -/
theorem runFuel_eq_run : ∀ {n : ℕ} {bs : List β}, bs.length ≤ n → D.runFuel n bs = D.run bs := by
  intro n
  -- The induction is on the bound: an item leaves fewer symbols, for which both bounds are enough.
  induction n using Nat.strong_induction_on with
  | _ n ih =>
    intro bs hn
    unfold run
    cases n with
    | zero =>
      obtain rfl : bs = [] := List.length_eq_zero_iff.mp (by omega)
      rfl
    | succ n =>
      cases hbs : bs with
      | nil =>
        have hnone : D.dec [] = none := by
          cases h : D.dec [] with
          | none => rfl
          | some p => exact absurd (D.shrinks h) (by simp)
        simp [runFuel, hnone]
      | cons b bs' =>
        simp only [runFuel, List.length_cons]
        cases h : D.dec (b :: bs') with
        | none => rfl
        | some p =>
          obtain ⟨r, rest⟩ := p
          have hlt := D.shrinks h
          simp only [hbs, List.length_cons] at hn hlt
          have h₁ := @ih n (by omega) rest (by omega)
          have h₂ := @ih bs'.length (by omega) rest (by omega)
          simp [h₁, h₂]

/-- Where the decoder stops at once, nothing is read. -/
theorem run_of_none {bs : List β} (h : D.dec bs = none) : D.run bs = ([], bs) := by
  unfold run
  cases hn : bs.length with
  | zero => rfl
  | succ n => simp [runFuel, h]

/-- One item, and then the rest. -/
theorem run_of_some {bs rest : List β} {r : ρ} (h : D.dec bs = some (r, rest)) :
    D.run bs = (r :: (D.run rest).1, (D.run rest).2) := by
  have hlt := D.shrinks h
  unfold run
  cases hn : bs.length with
  | zero => omega
  | succ n =>
    have hfuel : rest.length ≤ n := by omega
    simp [runFuel, h, D.runFuel_eq_run hfuel, run]

/-- The induction that follows `run`: the decoder stops, or reads an item and goes on. -/
theorem run_induction {P : List β → Prop} (stop : ∀ bs, D.dec bs = none → P bs)
    (item : ∀ bs r rest, D.dec bs = some (r, rest) → P rest → P bs) (bs : List β) : P bs := by
  induction hn : bs.length using Nat.strong_induction_on generalizing bs with
  | _ n ih =>
    cases h : D.dec bs with
    | none => exact stop bs h
    | some p => exact item bs p.1 p.2 h (ih _ (by have := D.shrinks h; omega) _ rfl)

/-- What is left cannot be decoded further. -/
theorem dec_run_snd (bs : List β) : D.dec (D.run bs).2 = none := by
  induction bs using D.run_induction with
  | stop bs h => rwa [D.run_of_none h]
  | item bs r rest h ih => rwa [D.run_of_some h]

/-- Decoding a stream in two parts: the symbols that the first part leaves go before the second. -/
theorem run_append (bs more : List β) :
    D.run (bs ++ more) = ((D.run bs).1 ++ (D.run ((D.run bs).2 ++ more)).1,
      (D.run ((D.run bs).2 ++ more)).2) := by
  induction bs using D.run_induction with
  | stop bs h => simp [D.run_of_none h]
  | item bs r rest h ih => rw [D.run_of_some h, D.run_of_some (D.stable more h), ih]; simp

end StreamDecoder

/-- A decoder with the encoder that it inverts, on the items that are valid. -/
structure Codec (β ρ : Type*) extends StreamDecoder β ρ where
  /-- The symbols of an item. -/
  enc : ρ → List β
  /-- The items that the encoder represents faithfully. -/
  Valid : ρ → Prop
  /-- An encoded item is read back, whatever follows it. -/
  dec_enc : ∀ {r} (rest : List β), Valid r → dec (enc r ++ rest) = some (r, rest)

namespace Codec

variable (C : Codec β ρ) {rs : List ρ}

/-- No item is read from a proper prefix of an encoded item: it would still be read from the whole,
and leave the symbols after the prefix. -/
theorem dec_torn {r : ρ} {bs : List β} (hr : C.Valid r) (hpre : bs <+: C.enc r)
    (hne : bs ≠ C.enc r) : C.dec bs = none := by
  obtain ⟨more, hmore⟩ := hpre
  cases h : C.dec bs with
  | none => rfl
  | some p =>
    have hwhole := C.stable more h
    have henc := C.dec_enc [] hr
    rw [List.append_nil, ← hmore, hwhole, Option.some.injEq, Prod.mk.injEq] at henc
    have hnil : more = [] := (List.append_eq_nil_iff.mp henc.2).2
    rw [hnil, List.append_nil] at hmore
    exact absurd hmore hne

/-- The symbols of a list of items. -/
def encodeAll (rs : List ρ) : List β := rs.flatMap C.enc

@[simp] theorem encodeAll_nil : C.encodeAll [] = [] := rfl

@[simp] theorem encodeAll_cons (r : ρ) (rs : List ρ) :
    C.encodeAll (r :: rs) = C.enc r ++ C.encodeAll rs := rfl

@[simp] theorem encodeAll_append (rs rs' : List ρ) :
    C.encodeAll (rs ++ rs') = C.encodeAll rs ++ C.encodeAll rs' := by
  simp [encodeAll]

/-- The items of an encoded list are read back before anything that follows. -/
theorem run_encodeAll_append (h : ∀ r ∈ rs, C.Valid r) (bs : List β) :
    C.run (C.encodeAll rs ++ bs) = (rs ++ (C.run bs).1, (C.run bs).2) := by
  induction rs with
  | nil => simp
  | cons r rs ih =>
    have hdec := C.dec_enc (C.encodeAll rs ++ bs) (h r (by simp))
    rw [encodeAll_cons, List.append_assoc, C.run_of_some hdec,
      ih fun r' hr' => h r' (by simp [hr'])]
    simp

/-- An encoded list is read back whole. -/
theorem run_encodeAll (h : ∀ r ∈ rs, C.Valid r) : C.run (C.encodeAll rs) = (rs, []) := by
  have hnil : C.dec [] = none := by
    cases h : C.dec [] with
    | none => rfl
    | some p => exact absurd (C.shrinks h) (by simp)
  simpa [C.run_of_none hnil] using C.run_encodeAll_append h []

/-- The items that lie wholly within the first `n` symbols of an encoded list. -/
def whole : List ρ → ℕ → List ρ
  | [], _ => []
  | r :: rs, n => if (C.enc r).length ≤ n then r :: whole rs (n - (C.enc r).length) else []

/-- The whole items come first in the list. -/
theorem whole_isPrefix (rs : List ρ) (n : ℕ) : C.whole rs n <+: rs := by
  induction rs generalizing n with
  | nil => exact List.nil_prefix
  | cons r rs ih =>
    unfold whole
    split_ifs
    · exact List.prefix_cons_inj r |>.mpr (ih _)
    · exact List.nil_prefix

/-- A cut through an encoded list leaves its whole items and a proper prefix of the next one, which
is empty exactly when the cut falls between two items. -/
theorem exists_take_encodeAll (rs : List ρ) (n : ℕ) :
    ∃ torn, (C.encodeAll rs).take n = C.encodeAll (C.whole rs n) ++ torn ∧
      (torn = [] ∨ ∃ r ∈ rs, torn <+: C.enc r ∧ torn ≠ C.enc r) := by
  induction rs generalizing n with
  | nil => exact ⟨[], by simp [whole]⟩
  | cons r rs ih =>
    rcases lt_or_ge n (C.enc r).length with hlt | hge
    · refine ⟨(C.enc r).take n, ?_, .inr ⟨r, by simp, List.take_prefix _ _, ?_⟩⟩
      · rw [encodeAll_cons, List.take_append_of_le_length hlt.le, whole, if_neg (not_le.mpr hlt)]
        simp
      · intro heq
        have := congrArg List.length heq
        simp at this
        omega
    · obtain ⟨torn, htake, htorn⟩ := ih (n - (C.enc r).length)
      refine ⟨torn, ?_, ?_⟩
      · rw [encodeAll_cons, List.take_append, List.take_of_length_le hge, htake, whole, if_pos hge]
        simp
      · rcases htorn with h | ⟨r', hr', h⟩
        · exact .inl h
        · exact .inr ⟨r', by simp [hr'], h⟩

/-- From whole items followed by a torn one, the whole items are read and the torn one is left. -/
theorem run_torn {torn : List β} (h : ∀ r ∈ rs, C.Valid r)
    (htorn : torn = [] ∨ ∃ r, C.Valid r ∧ torn <+: C.enc r ∧ torn ≠ C.enc r) :
    C.run (C.encodeAll rs ++ torn) = (rs, torn) := by
  have hnone : C.run torn = ([], torn) := by
    rcases htorn with rfl | ⟨r, hr, hpre, hne⟩
    · have hnil : ∀ r ∈ ([] : List ρ), C.Valid r := by simp
      simpa using C.run_encodeAll hnil
    · exact C.run_of_none (C.dec_torn hr hpre hne)
  rw [C.run_encodeAll_append h, hnone]
  simp

/-- What is read of a cut encoded list, and what is left of it. -/
theorem exists_run_take (h : ∀ r ∈ rs, C.Valid r) (n : ℕ) :
    ∃ torn, (C.encodeAll rs).take n = C.encodeAll (C.whole rs n) ++ torn ∧
      C.run ((C.encodeAll rs).take n) = (C.whole rs n, torn) := by
  obtain ⟨torn, htake, htorn⟩ := C.exists_take_encodeAll rs n
  have hwhole : ∀ r ∈ C.whole rs n, C.Valid r := fun r hr =>
    h r ((C.whole_isPrefix rs n).subset hr)
  have htorn : torn = [] ∨ ∃ r, C.Valid r ∧ torn <+: C.enc r ∧ torn ≠ C.enc r := by
    rcases htorn with h' | ⟨r, hr, h'⟩
    · exact .inl h'
    · exact .inr ⟨r, h r hr, h'⟩
  exact ⟨torn, htake, by rw [htake, C.run_torn hwhole htorn]⟩

/-- The items that are read of a cut encoded list are those that lie wholly before the cut. -/
theorem run_take_encodeAll (h : ∀ r ∈ rs, C.Valid r) (n : ℕ) :
    (C.run ((C.encodeAll rs).take n)).1 = C.whole rs n := by
  obtain ⟨torn, -, hrun⟩ := C.exists_run_take h n
  rw [hrun]

end Codec
