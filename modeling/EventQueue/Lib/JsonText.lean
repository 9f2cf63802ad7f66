import EventQueue.Lib.JsValue
import EventQueue.Lib.NumberText

/-!
# What `JSON.stringify` writes is read back

`JsValue` is a value of the language as `JSON.parse` builds it: numbers are rounded, and an object
has each name once, in the order of the language. `stringify` of a value is a JSON text of that
value, in which only the infinities have become `null` (`parse_stringify`); and it has no lone
surrogate, so that it survives UTF-8 (`parse_utf8_stringify`).

Strings, lists, and objects come first, each with the grammar's production for what is written.
-/

namespace Json

/-! ## Strings -/

/-- A hexadecimal digit is read back. -/
theorem hexDigit_hexChar : ∀ n < 16, hexDigit (hexChar n) = some n.toUInt16 := by decide

/-- So are four of them. -/
theorem hex4_unicodeEscape (u : UInt16) :
    hex4 (hexChar (u.toNat / 0x1000)) (hexChar (u.toNat / 0x100 % 0x10))
      (hexChar (u.toNat / 0x10 % 0x10)) (hexChar (u.toNat % 0x10)) = some u := by
  have hlt := u.toNat_lt
  unfold hex4
  rw [hexDigit_hexChar _ (by omega), hexDigit_hexChar _ (by omega), hexDigit_hexChar _ (by omega),
    hexDigit_hexChar _ (by omega)]
  simp only [Option.bind_eq_bind, Option.bind_some, Option.pure_def, Option.some.injEq]
  apply UInt16.toNat_inj.mp
  have h₁ : UInt16.toNat 0x1000 = 0x1000 := rfl
  have h₂ : UInt16.toNat 0x100 = 0x100 := rfl
  have h₃ : UInt16.toNat 0x10 = 0x10 := rfl
  simp only [UInt16.toNat_add, UInt16.toNat_mul, Nat.toUInt16, UInt16.toNat_ofNat', h₁, h₂, h₃]
  omega

/-- A unit that is escaped by its number. -/
theorem chars_unicodeEscape (u : UInt16) {t s : JsString} (ht : Chars t s) :
    Chars (unicodeEscape u ++ t) (u :: s) :=
  .unicode _ _ _ _ u t s (hex4_unicodeEscape u) ht

/-- A unit that is no surrogate. -/
theorem chars_escapeUnit (u : UInt16) {t s : JsString} (ht : Chars t s) :
    Chars (escapeUnit u ++ t) (u :: s) := by
  unfold escapeUnit
  split_ifs with h₁ h₂ h₃ h₄ h₅ h₆ h₇
  · exact h₁ ▸ .escaped 0x62 0x08 t s rfl ht
  · exact h₂ ▸ .escaped 0x74 0x09 t s rfl ht
  · exact h₃ ▸ .escaped 0x6E 0x0A t s rfl ht
  · exact h₄ ▸ .escaped 0x66 0x0C t s rfl ht
  · exact h₅ ▸ .escaped 0x72 0x0D t s rfl ht
  · rcases h₆ with rfl | rfl
    · exact .escaped 0x22 0x22 t s rfl ht
    · exact .escaped 0x5C 0x5C t s rfl ht
  · exact chars_unicodeEscape u ht
  · refine .unescaped u t s ?_ ht
    rw [not_or] at h₆
    simp only [Json.unescaped, Bool.and_eq_true, decide_eq_true_eq]
    exact ⟨⟨h₆.1, h₆.2⟩, UInt16.not_lt.mp h₇⟩

/-- A surrogate stands for itself. -/
theorem unescaped_of_surrogate {u : UInt16} (h : 0xD800 ≤ u.toNat) : Json.unescaped u = true := by
  have hquote : u ≠ quotationMark := by
    rintro rfl
    exact absurd h (by decide)
  have hescape : u ≠ escape := by
    rintro rfl
    exact absurd h (by decide)
  have hcontrol : (0x20 : UInt16) ≤ u := UInt16.le_iff_toNat_le.mpr (le_trans (by decide) h)
  simp [Json.unescaped, hquote, hescape, hcontrol]

/-- The characters that are written for a string are read back. -/
theorem chars_quoteChars (s : JsString) : Chars (quoteChars s) s := by
  induction s using quoteChars.induct with
  | case1 => exact .nil
  | case2 u us hplain ih =>
    rw [quoteChars.eq_def]
    dsimp only
    rw [if_pos hplain]
    exact chars_escapeUnit u ih
  | case3 u hsurrogate =>
    rw [quoteChars.eq_def]
    dsimp only
    rw [if_neg hsurrogate]
    have htext := chars_unicodeEscape u .nil
    rwa [List.append_nil] at htext
  | case4 u hsurrogate v vs hpair ih =>
    rw [quoteChars.eq_def]
    dsimp only
    rw [if_neg hsurrogate, if_pos hpair]
    rw [not_or, not_lt] at hsurrogate
    exact .unescaped u _ _ (unescaped_of_surrogate hsurrogate.1)
      (.unescaped v _ _ (unescaped_of_surrogate (by omega)) ih)
  | case5 u hsurrogate v vs hlone ih =>
    rw [quoteChars.eq_def]
    dsimp only
    rw [if_neg hsurrogate, if_neg hlone]
    exact chars_unicodeEscape u ih

/-- So is the string. -/
theorem value_quote (s : JsString) : Value (quote s) (.string s) :=
  .string _ _ (chars_quoteChars s)

/-! ## Lists -/

section Lists

variable {α β : Type} {item : JsString → β → Prop} {text : α → JsString} {f : α → β} {as : List α}

theorem commaSeparated_cons_cons (t t' : JsString) (ts : List JsString) :
    commaSeparated (t :: t' :: ts) = t ++ valueSeparator :: commaSeparated (t' :: ts) := by
  simp [commaSeparated, List.intercalate]

/-- Texts with commas between them are read back. -/
theorem sepBy_commaSeparated (h : ∀ a ∈ as, item (text a) (f a)) (hne : as ≠ []) :
    SepBy item (commaSeparated (as.map text)) (as.map f) := by
  have hws : Ws [] := fun u hu => by cases hu
  induction as with
  | nil => exact absurd rfl hne
  | cons a as ih =>
    cases as with
    | nil =>
      have hone := SepBy.one [] (text a) [] (f a) hws (h a (by simp)) hws
      simpa [commaSeparated, List.intercalate] using hone
    | cons a' as =>
      have hrest := ih (fun b hb => h b (by simp [hb])) (List.cons_ne_nil _ _)
      have hmore := SepBy.more [] (text a) [] _ (f a) _ hws (h a (by simp)) hws hrest
      rw [List.nil_append, List.append_nil] at hmore
      rw [List.map_cons, List.map_cons, commaSeparated_cons_cons]
      exact hmore

/-- An array of values. -/
theorem value_array {text : α → JsString} {f : α → Json} (h : ∀ a ∈ as, Value (text a) (f a)) :
    Value (beginArray :: commaSeparated (as.map text) ++ [endArray]) (.array (as.map f)) := by
  cases as with
  | nil => exact .emptyArray [] fun u hu => by cases hu
  | cons a as => exact .array _ _ (sepBy_commaSeparated h (List.cons_ne_nil a as))

/-- A name and a value. -/
theorem member_quote {t : JsString} {v : Json} (k : JsString) (hv : Value t v) :
    Member Value (quote k ++ nameSeparator :: t) (k, v) := by
  have hws : Ws [] := fun u hu => by cases hu
  have hmember := Member.mk _ _ [] [] _ _ (chars_quoteChars k) hws hws hv
  simpa [quote] using hmember

/-- An object of values. -/
theorem value_object (key : α → JsString) {text : α → JsString} {f : α → Json}
    (h : ∀ a ∈ as, Value (text a) (f a)) :
    Value (beginObject :: commaSeparated (as.map fun a => quote (key a) ++ nameSeparator :: text a)
      ++ [endObject]) (.object (as.map fun a => (key a, f a))) := by
  cases as with
  | nil => exact .emptyObject [] fun u hu => by cases hu
  | cons a as =>
    exact .object _ _ (sepBy_commaSeparated (fun b hb => member_quote (key b) (h b hb))
      (List.cons_ne_nil a as))

end Lists

/-! ## Properties -/

section Properties

variable {α β : Type} {ps : List (JsString × α)}

/-- The values of some properties, mapped. -/
def mapValues (g : JsString × α → β) (ps : List (JsString × α)) : List (JsString × β) :=
  ps.map fun p => (p.1, g p)

theorem any_mapValues (g : JsString × α → β) (ps : List (JsString × α)) (f : JsString → Bool) :
    ((mapValues g ps).any fun p => f p.1) = ps.any fun p => f p.1 := by
  rw [mapValues, List.any_map]
  rfl

theorem setProperty_mapValues (g : JsString × α → β) (ps : List (JsString × α))
    (p : JsString × α) :
    setProperty (mapValues g ps) (p.1, g p) = mapValues g (setProperty ps p) := by
  have hany := any_mapValues g ps fun k => decide (k = p.1)
  unfold setProperty
  dsimp only
  rw [hany]
  split_ifs with h
  · simp only [mapValues, List.map_map]
    refine List.map_congr_left fun p' _ => ?_
    simp only [Function.comp_apply]
    split_ifs with hkey <;> rfl
  · simp [mapValues]

/-- The order of an object's properties depends on their names alone. -/
theorem ownProperties_mapValues (g : JsString × α → β) (ps : List (JsString × α)) :
    ownProperties (mapValues g ps) = mapValues g (ownProperties ps) := by
  have hset : ∀ (ms qs : List (JsString × α)), (mapValues g ms).foldl setProperty (mapValues g qs) =
      mapValues g (ms.foldl setProperty qs) := by
    intro ms
    induction ms with
    | nil => exact fun qs => rfl
    | cons m ms ih =>
      intro qs
      have hcons : mapValues g (m :: ms) = (m.1, g m) :: mapValues g ms := rfl
      rw [hcons, List.foldl_cons, setProperty_mapValues, ih, List.foldl_cons]
  have hall : (mapValues g ps).foldl setProperty [] = mapValues g (ps.foldl setProperty []) :=
    hset ps []
  unfold ownProperties
  dsimp only
  rw [hall]
  generalize ps.foldl setProperty [] = qs
  simp only [mapValues, List.filter_map, List.map_append]
  congr 1
  symm
  apply List.map_insertionSort
  exact fun p _ q _ => Iff.rfl

/-- The names of some properties. -/
def keys (ps : List (JsString × α)) : List JsString := ps.map Prod.fst

theorem mem_setProperty {p p' : JsString × α} (h : p' ∈ setProperty ps p) : p' = p ∨ p' ∈ ps := by
  unfold setProperty at h
  split_ifs at h
  · obtain ⟨q, hq, rfl⟩ := List.mem_map.mp h
    split_ifs
    · exact .inl rfl
    · exact .inr hq
  · rw [List.mem_append, List.mem_singleton] at h
    exact h.symm

/-- An object has no other properties than those that were set. -/
theorem mem_ownProperties {p : JsString × α} (h : p ∈ ownProperties ps) : p ∈ ps := by
  have hset : ∀ (ms qs : List (JsString × α)), p ∈ ms.foldl setProperty qs → p ∈ qs ∨ p ∈ ms := by
    intro ms
    induction ms with
    | nil => exact fun qs h => .inl h
    | cons m ms ih =>
      intro qs h
      rcases ih _ h with h | h
      · rcases mem_setProperty h with rfl | h
        · exact .inr (by simp)
        · exact .inl h
      · exact .inr (by simp [h])
  have hmem : p ∈ ps.foldl setProperty [] := by
    unfold ownProperties at h
    simp only [List.mem_append, List.mem_insertionSort, List.mem_filter] at h
    exact h.elim And.left And.left
  simpa using hset ps [] hmem

/-- A name is set once. -/
theorem nodup_setProperty {p : JsString × α} (h : (keys ps).Nodup) :
    (keys (setProperty ps p)).Nodup := by
  unfold setProperty
  split_ifs with hany
  · have hkeys : keys (ps.map fun p' => if p'.1 = p.1 then p else p') = keys ps := by
      simp only [keys, List.map_map]
      refine List.map_congr_left fun p' _ => ?_
      simp only [Function.comp_apply]
      split_ifs with heq
      · exact heq.symm
      · rfl
    rwa [hkeys]
  · simp only [keys, List.map_append, List.map_cons, List.map_nil]
    refine List.Nodup.append h (List.nodup_singleton _) (List.disjoint_singleton.mpr fun hmem => ?_)
    obtain ⟨p', hp', heq⟩ := List.mem_map.mp hmem
    exact hany (List.any_eq_true.mpr ⟨p', hp', decide_eq_true heq⟩)

/-- Properties whose names differ are set one after the other. -/
theorem foldl_setProperty {ms : List (JsString × α)} (h : (keys (ps ++ ms)).Nodup) :
    ms.foldl setProperty ps = ps ++ ms := by
  induction ms generalizing ps with
  | nil => simp
  | cons m ms ih =>
    have hnew : (ps.any fun p => decide (p.1 = m.1)) = false := by
      rw [keys, List.map_append, List.map_cons, List.nodup_middle, List.nodup_cons] at h
      rw [List.any_eq_false]
      intro p hp heq
      refine h.1 (List.mem_append_left _ ?_)
      exact List.mem_map.mpr ⟨p, hp, of_decide_eq_true heq⟩
    have hset : setProperty ps m = ps ++ [m] := by
      unfold setProperty
      rw [hnew]
      rfl
    rw [List.foldl_cons, hset, ih (by simpa using h), List.append_assoc]
    rfl

/-- The properties of an object are those that were set, in another order. -/
theorem ownProperties_perm (ps : List (JsString × α)) :
    (ownProperties ps).Perm (ps.foldl setProperty []) := by
  unfold ownProperties
  dsimp only
  generalize ps.foldl setProperty [] = qs
  have hsplit := List.filter_append_perm (fun p : JsString × α => (arrayIndex p.1).isSome) qs
  exact ((List.perm_insertionSort _ _).append_right _).trans (by simpa using hsplit)

/-- Every name of an object is there once. -/
theorem nodup_ownProperties (ps : List (JsString × α)) : (keys (ownProperties ps)).Nodup := by
  have hset : ∀ (ms qs : List (JsString × α)), (keys qs).Nodup →
      (keys (ms.foldl setProperty qs)).Nodup := by
    intro ms
    induction ms with
    | nil => exact fun qs h => h
    | cons m ms ih => exact fun qs h => ih _ (nodup_setProperty h)
  exact ((ownProperties_perm ps).map Prod.fst).nodup_iff.mpr (hset ps [] List.nodup_nil)

/-- What is sorted by its index stays so. -/
theorem insertionSort_index (ps : List (JsString × α)) :
    (ps.insertionSort fun p q => (arrayIndex p.1).getD 0 ≤ (arrayIndex q.1).getD 0).insertionSort
        (fun p q => (arrayIndex p.1).getD 0 ≤ (arrayIndex q.1).getD 0) =
      ps.insertionSort fun p q => (arrayIndex p.1).getD 0 ≤ (arrayIndex q.1).getD 0 := by
  have : Std.Total fun p q : JsString × α => (arrayIndex p.1).getD 0 ≤ (arrayIndex q.1).getD 0 :=
    ⟨fun _ _ => le_total _ _⟩
  have : IsTrans (JsString × α) fun p q => (arrayIndex p.1).getD 0 ≤ (arrayIndex q.1).getD 0 :=
    ⟨fun _ _ _ => le_trans⟩
  exact (List.pairwise_insertionSort _ ps).insertionSort_eq

/-- The properties of an object, set again. -/
theorem ownProperties_idem (ps : List (JsString × α)) :
    ownProperties (ownProperties ps) = ownProperties ps := by
  have hset : (ownProperties ps).foldl setProperty [] = ownProperties ps :=
    foldl_setProperty (by simpa using nodup_ownProperties ps)
  rw [ownProperties.eq_def (ownProperties ps), hset]
  dsimp only
  unfold ownProperties
  dsimp only
  generalize ps.foldl setProperty [] = qs
  have hindexed : ∀ p ∈ (qs.filter fun p => (arrayIndex p.1).isSome).insertionSort
      (fun p q => (arrayIndex p.1).getD 0 ≤ (arrayIndex q.1).getD 0),
      (arrayIndex p.1).isSome = true := by
    intro p hp
    rw [List.mem_insertionSort] at hp
    exact (List.mem_filter.mp hp).2
  have hnamed : ∀ p ∈ qs.filter fun p => (arrayIndex p.1).isNone,
      (arrayIndex p.1).isNone = true := fun p hp => (List.mem_filter.mp hp).2
  have hsorted := insertionSort_index (qs.filter fun p => (arrayIndex p.1).isSome)
  generalize (qs.filter fun p => (arrayIndex p.1).isSome).insertionSort
    (fun p q => (arrayIndex p.1).getD 0 ≤ (arrayIndex q.1).getD 0) = indexed at *
  generalize (qs.filter fun p => (arrayIndex p.1).isNone) = named at *
  -- The indices come first, and are sorted already.
  have hfirst : (indexed ++ named).filter (fun p => (arrayIndex p.1).isSome) = indexed := by
    have hnil : named.filter (fun p => (arrayIndex p.1).isSome) = [] :=
      List.filter_eq_nil_iff.mpr fun p hp => by simpa using hnamed p hp
    rw [List.filter_append, List.filter_eq_self.mpr hindexed, hnil, List.append_nil]
  have hrest : (indexed ++ named).filter (fun p => (arrayIndex p.1).isNone) = named := by
    have hnil : indexed.filter (fun p => (arrayIndex p.1).isNone) = [] :=
      List.filter_eq_nil_iff.mpr fun p hp => by
        simpa [Option.isSome_iff_ne_none] using hindexed p hp
    rw [List.filter_append, List.filter_eq_self.mpr hnamed, hnil, List.nil_append]
  rw [hfirst, hrest, hsorted]

end Properties

/-! ## Values -/

end Json

/-- A value that `JSON.parse` returns. -/
inductive JsValue
  | null
  | bool (b : Bool)
  | number (x : JsNumber)
  | string (s : JsString)
  | array (elems : List JsValue)
  /-- An object with its properties in their order. -/
  | object (properties : List (JsString × JsValue))
deriving Repr

namespace JsValue

/-- `x[key]`; `none` is `undefined`. -/
def property (key : JsString) : JsValue → Option JsValue
  | .object ps => (ps.find? fun p => p.1 = key).map Prod.snd
  | _ => none

mutual

/-- What `JSON.stringify` keeps of a value: the infinities become `null`. -/
def kept : JsValue → JsValue
  | .number (.infinity _) => .null
  | .array vs => .array (keptElems vs)
  | .object ps => .object (keptProperties ps)
  | v => v

/-- What it keeps of the elements of an array. -/
def keptElems : List JsValue → List JsValue
  | [] => []
  | v :: vs => kept v :: keptElems vs

/-- What it keeps of an object's properties. -/
def keptProperties : List (JsString × JsValue) → List (JsString × JsValue)
  | [] => []
  | (k, v) :: ps => (k, kept v) :: keptProperties ps

end

end JsValue

namespace Json

mutual

/-- The value of a JSON text, as `JSON.parse` builds it. -/
def value : Json → JsValue
  | .null => .null
  | .bool b => .bool b
  | .number negative c e => .number (JsNumber.ofDecimal negative c e)
  | .string s => .string s
  | .array vs => .array (values vs)
  | .object ms => .object (ownProperties (memberValues ms))

/-- The values of the elements of an array. -/
def values : List Json → List JsValue
  | [] => []
  | v :: vs => value v :: values vs

/-- The names of an object's members, and their values. -/
def memberValues : List (JsString × Json) → List (JsString × JsValue)
  | [] => []
  | (k, v) :: ms => (k, value v) :: memberValues ms

end

/-- What was written for a value has been read back as what is kept of it. -/
def ReadBack (v : Json) : Prop := ∃ v', Value (stringify v) v' ∧ v'.value = v.value.kept

theorem stringifyElems_eq (vs : List Json) : stringifyElems vs = vs.map stringify := by
  induction vs with
  | nil => rfl
  | cons v vs ih => rw [stringifyElems, ih, List.map_cons]

theorem stringifyMembers_eq (ms : List (JsString × Json)) :
    stringifyMembers ms = mapValues (fun m => stringify m.2) ms := by
  induction ms with
  | nil => rfl
  | cons m ms ih => rw [stringifyMembers, ih]; rfl

theorem values_eq (vs : List Json) : values vs = vs.map value := by
  induction vs with
  | nil => rfl
  | cons v vs ih => rw [values, ih, List.map_cons]

theorem memberValues_eq (ms : List (JsString × Json)) :
    memberValues ms = mapValues (fun m => value m.2) ms := by
  induction ms with
  | nil => rfl
  | cons m ms ih => rw [memberValues, ih]; rfl

theorem keptElems_eq (vs : List JsValue) : JsValue.keptElems vs = vs.map JsValue.kept := by
  induction vs with
  | nil => rfl
  | cons v vs ih => rw [JsValue.keptElems, ih, List.map_cons]

theorem keptProperties_eq (ps : List (JsString × JsValue)) :
    JsValue.keptProperties ps = mapValues (fun p => p.2.kept) ps := by
  induction ps with
  | nil => rfl
  | cons p ps ih => rw [JsValue.keptProperties, ih]; rfl

/-- An array whose elements are read back. -/
theorem readBack_array {vs : List Json} (h : ∀ v ∈ vs, ReadBack v) : ReadBack (.array vs) := by
  have hall : ∀ v : Json, ∃ v', v ∈ vs → Value (stringify v) v' ∧ v'.value = v.value.kept := by
    intro v
    by_cases hv : v ∈ vs
    · obtain ⟨v', hv'⟩ := h v hv
      exact ⟨v', fun _ => hv'⟩
    · exact ⟨.null, fun hv' => absurd hv' hv⟩
  choose f hf using hall
  refine ⟨.array (vs.map f), ?_, ?_⟩
  · rw [stringify, stringifyElems_eq]
    exact value_array fun v hv => (hf v hv).1
  · rw [value, value, JsValue.kept, values_eq, values_eq, keptElems_eq, List.map_map, List.map_map]
    exact congrArg JsValue.array (List.map_congr_left fun v hv => (hf v hv).2)

/-- An object whose members' values are read back. -/
theorem readBack_object {ms : List (JsString × Json)} (h : ∀ m ∈ ms, ReadBack m.2) :
    ReadBack (.object ms) := by
  have hall : ∀ m : JsString × Json, ∃ v', m ∈ ms →
      Value (stringify m.2) v' ∧ v'.value = m.2.value.kept := by
    intro m
    by_cases hm : m ∈ ms
    · obtain ⟨v', hv'⟩ := h m hm
      exact ⟨v', fun _ => hv'⟩
    · exact ⟨.null, fun hm' => absurd hm' hm⟩
  choose f hf using hall
  have hown : ∀ m ∈ ownProperties ms, Value (stringify m.2) (f m) ∧ (f m).value = m.2.value.kept :=
    fun m hm => hf m (mem_ownProperties hm)
  refine ⟨.object (mapValues f (ownProperties ms)), ?_, ?_⟩
  · rw [stringify, stringifyMembers_eq, ownProperties_mapValues, mapValues, List.map_map]
    exact value_object Prod.fst fun m hm => (hown m hm).1
  · -- The members are in their order already, and each is what is kept of the value.
    have hkept : mapValues (fun m => value m.2) (mapValues f (ownProperties ms)) =
        ownProperties (mapValues (fun m => m.2.value.kept) ms) := by
      rw [ownProperties_mapValues, mapValues, mapValues, mapValues, List.map_map]
      exact List.map_congr_left fun m hm => congrArg (Prod.mk m.1) (hown m hm).2
    have hvalue : mapValues (fun p : JsString × JsValue => p.2.kept)
        (mapValues (fun m : JsString × Json => value m.2) ms) =
        mapValues (fun m => m.2.value.kept) ms := by
      rw [mapValues, mapValues, List.map_map]
      rfl
    rw [value, value, JsValue.kept, memberValues_eq, memberValues_eq, keptProperties_eq, hkept,
      ownProperties_idem, ← ownProperties_mapValues, hvalue]

mutual

/-- What was written for a value is read back as what is kept of it. -/
theorem readBack : ∀ v : Json, ReadBack v
  | .null => ⟨.null, .literalNull, rfl⟩
  | .bool true => ⟨.bool true, .literalTrue, rfl⟩
  | .bool false => ⟨.bool false, .literalFalse, rfl⟩
  | .number negative c e => by
    rw [ReadBack, stringify, value]
    cases h : JsNumber.ofDecimal negative c e with
    | finite q =>
      obtain ⟨negative', c', e', htext, heq⟩ := JsNumber.exists_text h
      exact ⟨.number negative' c' e', htext, by rw [value, heq]; rfl⟩
    | infinity negative' => exact ⟨.null, .literalNull, rfl⟩
  | .string s => ⟨.string s, value_quote s, rfl⟩
  | .array vs => readBack_array (readBack_elems vs)
  | .object ms => readBack_object (readBack_members ms)

theorem readBack_elems : ∀ vs : List Json, ∀ v ∈ vs, ReadBack v
  | [] => fun v hv => by cases hv
  | v :: vs => by
    rw [List.forall_mem_cons]
    exact ⟨readBack v, readBack_elems vs⟩

theorem readBack_members : ∀ ms : List (JsString × Json), ∀ m ∈ ms, ReadBack m.2
  | [] => fun m hm => by cases hm
  | (k, v) :: ms => by
    rw [List.forall_mem_cons]
    exact ⟨readBack v, readBack_members ms⟩

end

/-- `JSON.parse(JSON.stringify(x))`. -/
theorem parse_stringify (v : Json) :
    ∃ v', parse (stringify v) = some v' ∧ v'.value = v.value.kept := by
  obtain ⟨v', htext, hvalue⟩ := readBack v
  have hws : Ws [] := fun u hu => by cases hu
  exact ⟨v', parse_of_text ⟨[], _, [], by simp, hws, hws, htext⟩, hvalue⟩

/-! ## No lone surrogates -/

section WellFormed

open JsString (isWellFormed isWellFormed_append isWellFormed_of_lt)

/-- A unit that is no surrogate does not matter. -/
theorem isWellFormed_cons {u : UInt16} (hu : u.toNat < 0xD800 ∨ 0xDFFF < u.toNat) (t : JsString) :
    isWellFormed (u :: t) = isWellFormed t := by
  rw [JsString.isWellFormed.eq_def]
  simp only [if_pos hu]

/-- An escape has no surrogates. -/
theorem isWellFormed_unicodeEscape (u : UInt16) : isWellFormed (unicodeEscape u) = true := by
  have hchar : ∀ n < 16, (hexChar n).toNat < 0xD800 := by decide
  have hlt := u.toNat_lt
  refine isWellFormed_of_lt fun v hv => ?_
  simp only [unicodeEscape, List.mem_cons, List.not_mem_nil, or_false] at hv
  rcases hv with rfl | rfl | rfl | rfl | rfl | rfl
  · decide
  · decide
  all_goals exact hchar _ (by omega)

theorem isWellFormed_escapeUnit {u : UInt16} (hu : u.toNat < 0xD800 ∨ 0xDFFF < u.toNat) :
    isWellFormed (escapeUnit u) = true := by
  unfold escapeUnit
  split_ifs
  · rfl
  · rfl
  · rfl
  · rfl
  · rfl
  · rw [isWellFormed_cons (.inl (by decide)), isWellFormed_cons hu]
    rfl
  · exact isWellFormed_unicodeEscape u
  · rw [isWellFormed_cons hu]
    rfl

theorem isWellFormed_quoteChars (s : JsString) : isWellFormed (quoteChars s) = true := by
  induction s using quoteChars.induct with
  | case1 => rfl
  | case2 u us hplain ih =>
    rw [quoteChars.eq_def]
    dsimp only
    rw [if_pos hplain, isWellFormed_append (isWellFormed_escapeUnit hplain), ih]
  | case3 u hsurrogate =>
    rw [quoteChars.eq_def]
    dsimp only
    rw [if_neg hsurrogate]
    exact isWellFormed_unicodeEscape u
  | case4 u hsurrogate v vs hpair ih =>
    rw [quoteChars.eq_def]
    dsimp only
    rw [if_neg hsurrogate, if_pos hpair, JsString.isWellFormed.eq_def]
    simp only [if_neg hsurrogate, ih, hpair, and_self, decide_true, Bool.and_self]
  | case5 u hsurrogate v vs hlone ih =>
    rw [quoteChars.eq_def]
    dsimp only
    rw [if_neg hsurrogate, if_neg hlone, isWellFormed_append (isWellFormed_unicodeEscape u), ih]

/-- A text between two units that are no surrogates. -/
theorem isWellFormed_between {u v : UInt16} {t : JsString} (hu : u.toNat < 0xD800)
    (hv : v.toNat < 0xD800) (ht : isWellFormed t = true) : isWellFormed (u :: t ++ [v]) = true := by
  rw [List.cons_append, isWellFormed_cons (.inl hu), isWellFormed_append ht,
    isWellFormed_cons (.inl hv)]
  rfl

theorem isWellFormed_quote (s : JsString) : isWellFormed (quote s) = true :=
  isWellFormed_between (by decide) (by decide) (isWellFormed_quoteChars s)

theorem isWellFormed_commaSeparated {ts : List JsString}
    (h : ∀ t ∈ ts, isWellFormed t = true) : isWellFormed (commaSeparated ts) = true := by
  induction ts with
  | nil => rfl
  | cons t ts ih =>
    obtain ⟨ht, hts⟩ := List.forall_mem_cons.mp h
    cases ts with
    | nil => simpa [commaSeparated, List.intercalate] using ht
    | cons t' ts =>
      rw [commaSeparated_cons_cons, isWellFormed_append ht, isWellFormed_cons (.inl (by decide))]
      exact ih hts

/-- The text of a number. -/
theorem isWellFormed_number {t : JsString} {negative : Bool} {c : ℕ} {e : ℤ}
    (h : Value t (.number negative c e)) : isWellFormed t = true := by
  have hdigits : ∀ {ds : JsString}, Digits ds → isWellFormed ds = true := by
    refine fun hds => isWellFormed_of_lt fun u hu => ?_
    have hdigit := hds.2 u hu
    simp only [isDigit, Bool.and_eq_true, decide_eq_true_eq, UInt16.le_iff_toNat_le] at hdigit
    exact lt_of_le_of_lt hdigit.2 (by decide)
  -- Every unit is a digit, a sign, a point, or the letter of the exponent.
  cases h with | number _ i f ds e n hi hf he =>
  have hsign : isWellFormed (if negative then [minus] else []) = true := by
    cases negative <;> rfl
  have hint : isWellFormed i = true := by
    cases hi with
    | zero => rfl
    | digits _ ht _ => exact hdigits ht
  have hfrac : isWellFormed f = true := by
    cases hf with
    | absent => rfl
    | digits _ hds => rw [isWellFormed_cons (.inl (by decide)), hdigits hds]
  have hletter : ∀ {u : UInt16}, isE u = true → u.toNat < 0xD800 := by
    intro u hu
    simp only [isE, Bool.or_eq_true, decide_eq_true_eq] at hu
    rcases hu with rfl | rfl <;> decide
  have hexp : isWellFormed e = true := by
    cases he with
    | absent => rfl
    | bare _ _ hu hds => rw [isWellFormed_cons (.inl (hletter hu)), hdigits hds]
    | plus _ _ hu hds =>
      rw [isWellFormed_cons (.inl (hletter hu)), isWellFormed_cons (.inl (by decide)), hdigits hds]
    | minus _ _ hu hds =>
      rw [isWellFormed_cons (.inl (hletter hu)), isWellFormed_cons (.inl (by decide)), hdigits hds]
  rw [List.append_assoc, List.append_assoc, isWellFormed_append hsign, isWellFormed_append hint,
    isWellFormed_append hfrac, hexp]

mutual

/-- `stringify` writes no lone surrogate. -/
theorem isWellFormed_stringify : ∀ v : Json, isWellFormed (stringify v) = true
  | .null => by decide
  | .bool true => by decide
  | .bool false => by decide
  | .number negative c e => by
    rw [stringify]
    cases h : JsNumber.ofDecimal negative c e with
    | finite q =>
      obtain ⟨negative', c', e', htext, -⟩ := JsNumber.exists_text h
      exact isWellFormed_number htext
    | infinity negative' =>
      have hnull : isWellFormed (JsString.ofString "null") = true := by decide
      exact hnull
  | .string s => isWellFormed_quote s
  | .array vs => by
    rw [stringify, stringifyElems_eq]
    refine isWellFormed_between (by decide) (by decide) (isWellFormed_commaSeparated fun t ht => ?_)
    obtain ⟨v, hv, rfl⟩ := List.mem_map.mp ht
    exact isWellFormed_elems vs v hv
  | .object ms => by
    rw [stringify, stringifyMembers_eq]
    refine isWellFormed_between (by decide) (by decide) (isWellFormed_commaSeparated fun t ht => ?_)
    obtain ⟨p, hp, rfl⟩ := List.mem_map.mp ht
    obtain ⟨m, hm, rfl⟩ := List.mem_map.mp (mem_ownProperties hp)
    rw [isWellFormed_append (isWellFormed_quote m.1), isWellFormed_cons (.inl (by decide))]
    exact isWellFormed_members ms m hm

theorem isWellFormed_elems : ∀ vs : List Json, ∀ v ∈ vs, isWellFormed (stringify v) = true
  | [] => fun v hv => by cases hv
  | v :: vs => by
    rw [List.forall_mem_cons]
    exact ⟨isWellFormed_stringify v, isWellFormed_elems vs⟩

theorem isWellFormed_members :
    ∀ ms : List (JsString × Json), ∀ m ∈ ms, isWellFormed (stringify m.2) = true
  | [] => fun m hm => by cases hm
  | (k, v) :: ms => by
    rw [List.forall_mem_cons]
    exact ⟨isWellFormed_stringify v, isWellFormed_members ms⟩

end

/-- What was written survives UTF-8. -/
theorem ofUtf8_toUtf8_stringify (v : Json) :
    JsString.ofUtf8 (JsString.toUtf8 (stringify v)) = stringify v :=
  JsString.ofUtf8_toUtf8 (isWellFormed_stringify v)

end WellFormed

/-! ## Reading properties -/

section Lookup

variable {α β : Type} {ps qs : List (JsString × α)} {key : JsString}

/-- The first property of a name. -/
def firstOf (key : JsString) (ps : List (JsString × α)) : Option α :=
  (ps.find? fun p => p.1 = key).map Prod.snd

theorem firstOf_cons (p : JsString × α) (ps : List (JsString × α)) :
    firstOf key (p :: ps) = if p.1 = key then some p.2 else firstOf key ps := by
  unfold firstOf
  rw [List.find?_cons]
  by_cases h : p.1 = key <;> simp [h]

theorem firstOf_append (ps qs : List (JsString × α)) :
    firstOf key (ps ++ qs) = (firstOf key ps).or (firstOf key qs) := by
  unfold firstOf
  rw [List.find?_append]
  cases List.find? (fun p => decide (p.1 = key)) ps <;> rfl

theorem firstOf_mapValues (g : α → β) (ps : List (JsString × α)) :
    firstOf key (mapValues (fun p => g p.2) ps) = (firstOf key ps).map g := by
  induction ps with
  | nil => rfl
  | cons p ps ih =>
    have hcons : mapValues (fun p => g p.2) (p :: ps) = (p.1, g p.2) ::
        mapValues (fun p => g p.2) ps := rfl
    rw [hcons, firstOf_cons, firstOf_cons, ih, apply_ite (Option.map g)]
    rfl

/-- A name that is there is found. -/
theorem isSome_firstOf : (firstOf key ps).isSome = ps.any fun p => p.1 = key := by
  rw [firstOf, Option.isSome_map, Bool.eq_iff_iff, List.find?_isSome, List.any_eq_true]

/-- A name that is there once is found by it. -/
theorem firstOf_eq_some (h : (keys ps).Nodup) {a : α} :
    firstOf key ps = some a ↔ (key, a) ∈ ps := by
  induction ps with
  | nil => simp [firstOf]
  | cons p ps ih =>
    rw [keys, List.map_cons, List.nodup_cons] at h
    rw [firstOf_cons, List.mem_cons, Prod.ext_iff]
    split_ifs with hkey
    · have hrest : (key, a) ∉ ps := fun hmem => h.1 (hkey ▸ List.mem_map_of_mem hmem)
      simp [hkey, hrest, eq_comm]
    · have hne : key ≠ p.1 := fun heq => hkey heq.symm
      rw [ih h.2]
      simp [hne]

/-- The order of properties does not matter when each name is there once. -/
theorem firstOf_perm (h : (keys ps).Nodup) (hperm : ps.Perm qs) :
    firstOf key ps = firstOf key qs := by
  have hqs : (keys qs).Nodup := (hperm.map Prod.fst).nodup_iff.mp h
  refine Option.ext fun a => ?_
  rw [firstOf_eq_some h, firstOf_eq_some hqs, hperm.mem_iff]

/-- A property in the place of another of its name. -/
theorem firstOf_replace (p : JsString × α) (ps : List (JsString × α)) :
    firstOf key (ps.map fun p' => if p'.1 = p.1 then p else p') =
      if p.1 = key then (firstOf key ps).map fun _ => p.2 else firstOf key ps := by
  induction ps with
  | nil => split_ifs <;> rfl
  | cons p' ps ih =>
    rw [List.map_cons, firstOf_cons, firstOf_cons, ih]
    by_cases hsame : p'.1 = p.1
    · rw [if_pos hsame, hsame]
      split_ifs <;> rfl
    · rw [if_neg hsame]
      by_cases hkey : p.1 = key
      · have hother : p'.1 ≠ key := fun h => hsame (h.trans hkey.symm)
        rw [if_neg hother, if_neg hother]
      · rw [if_neg hkey, if_neg hkey]

/-- A property that was set is found. -/
theorem firstOf_setProperty (p : JsString × α) :
    firstOf key (setProperty ps p) = if p.1 = key then some p.2 else firstOf key ps := by
  unfold setProperty
  split_ifs with hany hkey hkey
  · -- It is in the place of the one that was there.
    rw [firstOf_replace, if_pos hkey]
    have hsome : (firstOf key ps).isSome = true := by rw [isSome_firstOf, ← hkey, hany]
    obtain ⟨a, ha⟩ := Option.isSome_iff_exists.mp hsome
    rw [ha, Option.map_some]
  · rw [firstOf_replace, if_neg hkey]
  · have hnone : firstOf key ps = none := by
      rw [← Option.not_isSome_iff_eq_none, isSome_firstOf, ← hkey]
      exact hany
    rw [firstOf_append, hnone, firstOf_cons, if_pos hkey]
    rfl
  · rw [firstOf_append, firstOf_cons, if_neg hkey]
    exact Option.or_none

/-- An object's property is the last of the members of its name. -/
theorem firstOf_ownProperties (ps : List (JsString × α)) :
    firstOf key (ownProperties ps) = firstOf key ps.reverse := by
  have hset : ∀ (ms qs : List (JsString × α)), firstOf key (ms.foldl setProperty qs) =
      (firstOf key ms.reverse).or (firstOf key qs) := by
    intro ms
    induction ms with
    | nil => exact fun qs => rfl
    | cons m ms ih =>
      intro qs
      rw [List.foldl_cons, ih, firstOf_setProperty, List.reverse_cons, firstOf_append, firstOf_cons,
        Option.or_assoc]
      split_ifs <;> rfl
  rw [firstOf_perm (nodup_ownProperties ps) (ownProperties_perm ps), hset]
  exact Option.or_none

end Lookup

/-- Reading a property of a text's value: the last member of that name. -/
theorem property_value (key : JsString) (v : Json) :
    v.value.property key = (v.property key).map value := by
  cases v with
  | object ms =>
    have hreverse : (mapValues (fun m : JsString × Json => value m.2) ms).reverse =
        mapValues (fun m => value m.2) ms.reverse := List.map_reverse.symm
    show firstOf key (ownProperties (memberValues ms)) = (firstOf key ms.reverse).map value
    rw [firstOf_ownProperties, memberValues_eq, hreverse, firstOf_mapValues]
  | _ => rfl

/-- Reading a property of what is kept of a value. -/
theorem property_kept (key : JsString) (x : JsValue) :
    x.kept.property key = (x.property key).map JsValue.kept := by
  cases x with
  | object ps =>
    show firstOf key (JsValue.keptProperties ps) = (firstOf key ps).map JsValue.kept
    rw [keptProperties_eq, firstOf_mapValues]
  | number x => cases x <;> rfl
  | _ => rfl

mutual

/-- What is kept of a value is kept of it again. -/
theorem kept_kept : ∀ x : JsValue, x.kept.kept = x.kept
  | .null => rfl
  | .bool b => rfl
  | .number (.finite q) => rfl
  | .number (.infinity b) => rfl
  | .string s => rfl
  | .array vs => by
    rw [JsValue.kept, JsValue.kept, keptElems_keptElems vs]
  | .object ps => by
    rw [JsValue.kept, JsValue.kept, keptProperties_keptProperties ps]

theorem keptElems_keptElems :
    ∀ xs : List JsValue, JsValue.keptElems (JsValue.keptElems xs) = JsValue.keptElems xs
  | [] => rfl
  | x :: xs => by
    rw [JsValue.keptElems, JsValue.keptElems, kept_kept x, keptElems_keptElems xs]

theorem keptProperties_keptProperties : ∀ ps : List (JsString × JsValue),
    JsValue.keptProperties (JsValue.keptProperties ps) = JsValue.keptProperties ps
  | [] => rfl
  | (k, x) :: ps => by
    rw [JsValue.keptProperties, JsValue.keptProperties, kept_kept x,
      keptProperties_keptProperties ps]

end

/-! ## The text depends on the value alone -/

mutual

/-- The text of a value. -/
def text : JsValue → JsString
  | .null => JsString.ofString "null"
  | .bool b => JsString.ofString (if b then "true" else "false")
  | .number (.finite q) => (JsNumber.finite q).toString
  | .number (.infinity _) => JsString.ofString "null"
  | .string s => quote s
  | .array xs => beginArray :: commaSeparated (textElems xs) ++ [endArray]
  | .object ps => beginObject :: commaSeparated (textProperties ps) ++ [endObject]

/-- The texts of the elements of an array. -/
def textElems : List JsValue → List JsString
  | [] => []
  | x :: xs => text x :: textElems xs

/-- The texts of an object's properties. -/
def textProperties : List (JsString × JsValue) → List JsString
  | [] => []
  | (k, x) :: ps => (quote k ++ nameSeparator :: text x) :: textProperties ps

end

theorem textElems_eq (xs : List JsValue) : textElems xs = xs.map text := by
  induction xs with
  | nil => rfl
  | cons x xs ih => rw [textElems, ih, List.map_cons]

theorem textProperties_eq (ps : List (JsString × JsValue)) :
    textProperties ps = ps.map fun p => quote p.1 ++ nameSeparator :: text p.2 := by
  induction ps with
  | nil => rfl
  | cons p ps ih => rw [textProperties, ih, List.map_cons]

mutual

/-- `stringify` writes the text of the value. -/
theorem stringify_eq : ∀ v : Json, stringify v = text v.value
  | .null => rfl
  | .bool b => rfl
  | .number negative c e => by
    rw [stringify, value]
    cases JsNumber.ofDecimal negative c e <;> rfl
  | .string s => rfl
  | .array vs => by
    rw [stringify, value, text, stringifyElems_eq, textElems_eq, values_eq, List.map_map]
    exact congrArg (fun ts => beginArray :: commaSeparated ts ++ [endArray])
      (List.map_congr_left (stringify_elems vs))
  | .object ms => by
    -- The texts of the members, in the order of the object's properties.
    have hmembers : stringifyMembers ms = mapValues (fun p => text p.2) (memberValues ms) := by
      rw [stringifyMembers_eq, memberValues_eq, mapValues, mapValues, mapValues, List.map_map]
      exact List.map_congr_left fun m hm => congrArg (Prod.mk m.1) (stringify_members ms m hm)
    rw [stringify, value, text, textProperties_eq, hmembers, ownProperties_mapValues, mapValues,
      List.map_map]
    rfl

theorem stringify_elems : ∀ vs : List Json, ∀ v ∈ vs, stringify v = text v.value
  | [] => fun v hv => by cases hv
  | v :: vs => by
    rw [List.forall_mem_cons]
    exact ⟨stringify_eq v, stringify_elems vs⟩

theorem stringify_members :
    ∀ ms : List (JsString × Json), ∀ m ∈ ms, stringify m.2 = text m.2.value
  | [] => fun m hm => by cases hm
  | (k, v) :: ms => by
    rw [List.forall_mem_cons]
    exact ⟨stringify_eq v, stringify_members ms⟩

end

mutual

/-- What is kept of a value has its text. -/
theorem text_kept : ∀ x : JsValue, text x.kept = text x
  | .null => rfl
  | .bool b => rfl
  | .number (.finite q) => rfl
  | .number (.infinity b) => rfl
  | .string s => rfl
  | .array xs => by rw [JsValue.kept, text, text, text_keptElems xs]
  | .object ps => by rw [JsValue.kept, text, text, text_keptProperties ps]

theorem text_keptElems : ∀ xs : List JsValue, textElems (JsValue.keptElems xs) = textElems xs
  | [] => rfl
  | x :: xs => by rw [JsValue.keptElems, textElems, textElems, text_kept x, text_keptElems xs]

theorem text_keptProperties : ∀ ps : List (JsString × JsValue),
    textProperties (JsValue.keptProperties ps) = textProperties ps
  | [] => rfl
  | (k, x) :: ps => by
    rw [JsValue.keptProperties, textProperties, textProperties, text_kept x,
      text_keptProperties ps]

end

/-- What was read back is written as before. -/
theorem stringify_of_kept {v v' : Json} (h : v'.value = v.value.kept) :
    stringify v' = stringify v := by
  rw [stringify_eq, stringify_eq, h, text_kept]

/-! ## Both together -/

/-- `JSON.parse` of the UTF-8 bytes that `JSON.stringify` was sent as. -/
theorem parse_utf8_stringify (v : Json) :
    ∃ v', parse (JsString.ofUtf8 (JsString.toUtf8 (stringify v))) = some v' ∧
      v'.value = v.value.kept := by
  rw [ofUtf8_toUtf8_stringify]
  exact parse_stringify v

/-- A property of what was read back. -/
theorem property_of_kept {v v' : Json} (h : v'.value = v.value.kept) (key : JsString) :
    (v'.property key).map value = (v.property key).map fun w => w.value.kept := by
  rw [← property_value, h, property_kept, property_value, Option.map_map]
  rfl

/-- A property that is a string. -/
theorem string_of_kept {v v' : Json} (h : v'.value = v.value.kept) {k s : JsString}
    (hs : v.property k = some (.string s)) : v'.property k = some (.string s) := by
  have hkept := property_of_kept h k
  rw [hs, Option.map_some] at hkept
  obtain ⟨w, hw, hvalue⟩ := Option.map_eq_some_iff.mp hkept
  have hstring : w = .string s := by
    cases w with
    | string t => exact congrArg Json.string (JsValue.string.inj hvalue)
    | _ => cases hvalue
  rw [hw, hstring]

/-! ## An identifier as a string -/

section Identifier

open JsNumber (digits digits_digits ofDigits_digits head_digits)

variable {ds : JsString}

/-- A digit is no white space. -/
theorem isStrWhiteSpace_of_isDigit {u : UInt16} (h : isDigit u = true) :
    isStrWhiteSpace u = false := by
  simp only [isDigit, Bool.and_eq_true, decide_eq_true_eq, UInt16.le_iff_toNat_le] at h
  obtain ⟨hlow, hhigh⟩ := h
  have hne : ∀ v : UInt16, v.toNat < 0x30 ∨ 0x39 < v.toNat → u ≠ v := by
    rintro v hv rfl
    change 0x30 ≤ u.toNat at hlow
    change u.toNat ≤ 0x39 at hhigh
    omega
  have hhigh' : ¬0x2000 ≤ u := by
    rw [UInt16.le_iff_toNat_le]
    change ¬0x2000 ≤ u.toNat
    change u.toNat ≤ 0x39 at hhigh
    omega
  simp [isStrWhiteSpace, hhigh', hne]

/-- Digits have no white space to be trimmed. -/
theorem trim_digits (h : Digits ds) : trim ds = ds := by
  have hdrop : ds.dropWhile isStrWhiteSpace = ds := by
    cases ds with
    | nil => rfl
    | cons u t =>
      rw [List.dropWhile_cons_of_neg]
      simp [isStrWhiteSpace_of_isDigit (h.2 u (by simp))]
  rw [trim, hdrop, List.rdropWhile_eq_self_iff]
  intro hne
  simp [isStrWhiteSpace_of_isDigit (h.2 _ (ds.getLast_mem hne))]

/-- Decimal digits denote the number that they denote in a literal. -/
theorem natOf_digits (h : Digits ds) : natOf 10 ds = some (ofDigits ds) := by
  have hdigit : ∀ u, isDigit u = true → digitOf 10 u = some (u.toNat - 0x30) := by
    intro u hu
    simp only [isDigit, Bool.and_eq_true, decide_eq_true_eq] at hu
    have hsub : (u - 0x30).toNat = u.toNat - 0x30 := UInt16.toNat_sub_of_le u 0x30 hu.1
    have hlt : u.toNat - 0x30 < 10 := by
      have h : u.toNat ≤ 0x39 := UInt16.le_iff_toNat_le.1 hu.2
      omega
    rw [digitOf, hexDigit, if_pos hu, Option.bind_some, hsub, if_pos hlt]
  have hfold : ∀ (ds : JsString) (n : ℕ), (∀ u ∈ ds, isDigit u = true) →
      ds.foldl (fun n u => n.bind fun n => (digitOf 10 u).map (n * 10 + ·)) (some n) =
        some (ds.foldl (fun n d => n * 10 + (d.toNat - 0x30)) n) := by
    intro ds
    induction ds with
    | nil => exact fun n _ => rfl
    | cons u ds ih =>
      intro n hds
      rw [List.foldl_cons, Option.bind_some, hdigit u (hds u (by simp)), Option.map_some,
        ih _ fun v hv => hds v (by simp [hv])]
      rfl
  rw [natOf, if_neg h.1, hfold ds 0 h.2]
  rfl

/-- `BigInt` reads what `toString` writes. -/
theorem stringToBigInt_digits (n : ℕ) : stringToBigInt (digits n) = some (n : ℤ) := by
  have hdigits := digits_digits n
  have hnat := natOf_digits hdigits
  rw [ofDigits_digits] at hnat
  unfold stringToBigInt
  rw [trim_digits hdigits]
  obtain rfl | hn := Nat.eq_zero_or_pos n
  · rfl
  · have hzero := head_digits hn
    cases hsplit : digits n with
    | nil => exact absurd hsplit hdigits.1
    | cons u t =>
      rw [hsplit] at hnat hzero hdigits
      have hu := hdigits.2 u (by simp)
      have hplus : u ≠ plus := by
        rintro rfl
        exact absurd hu (by decide)
      have hminus : u ≠ minus := by
        rintro rfl
        exact absurd hu (by decide)
      have hne : u ≠ zero := by simpa using hzero
      dsimp only
      rw [if_neg hplus, if_neg hminus, if_neg (by simp [hne]), if_neg (by simp [hne]),
        if_neg (by simp [hne]), hnat]
      rfl

end Identifier

end Json
