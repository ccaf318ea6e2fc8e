import Sitewright.Proofs.Json.Number
import Sitewright.Proofs.Json.Readable
import Sitewright.Proofs.Json.Text

/-!
# Printed values read back

A readable value printed in a style that has words for infinity reads as itself, whatever the
alphabet and the layout. The readers need no more fuel than the text has characters, and the limit
on integers is one that the value keeps to.
-/

namespace Sitewright

/-! ## Blanks -/

theorem Decimal.text_of_finite {x : Decimal} (h : x.isInfinite = false) :
    x.text = x.finiteText := by
  have hne : x ≠ .nan := by
    rintro rfl
    rw [isInfinite_nan] at h
    cases h
  rw [text, if_neg hne, h, if_neg Bool.false_ne_true]

namespace Json

theorem skipSpace_cons {c : Char} {rest : List Char} (h : isSpace c = false) :
    skipSpace (c :: rest) = c :: rest := by
  rw [skipSpace, List.dropWhile_cons_of_neg (by simp [h])]

theorem skipSpace_append {blanks rest : List Char} (h : ∀ c ∈ blanks, isSpace c = true) :
    skipSpace (blanks ++ rest) = skipSpace rest :=
  List.dropWhile_append_of_pos h

end Json

theorem JsonStyle.isSpace_of_mem_lead {style : JsonStyle} {depth : Nat} {c : Char}
    (h : c ∈ style.lead depth) : Json.isSpace c = true := by
  unfold lead at h
  split at h
  · rcases List.mem_cons.mp h with rfl | h
    · rfl
    · rw [List.eq_of_mem_replicate h]
      rfl
  · cases h

theorem JsonStyle.separator_eq (style : JsonStyle) (depth : Nat) :
    ∃ blanks, style.separator depth = ',' :: blanks ∧ ∀ c ∈ blanks, Json.isSpace c = true := by
  unfold separator
  split
  · exact ⟨_, rfl, fun c hc => isSpace_of_mem_lead hc⟩
  · refine ⟨_, rfl, fun c hc => ?_⟩
    rw [List.mem_singleton.mp hc]
    rfl

namespace Json

variable {style : JsonStyle} {limit : Option Nat}

theorem endsNumber_cons {c : Char} (h : Decimal.isDigit c = false ∧ c ≠ '.' ∧ c ≠ 'e' ∧ c ≠ 'E')
    (rest : List Char) : EndsNumber (c :: rest) := by
  intro other ho
  cases ho
  exact h

theorem endsNumber_lead_append {rest : List Char} (style : JsonStyle) (depth : Nat)
    (h : EndsNumber rest) : EndsNumber (style.lead depth ++ rest) := by
  unfold JsonStyle.lead
  split
  · exact endsNumber_cons (by decide) _
  · exact h

/-! ## Where values start -/

def StartsValue (text : List Char) : Prop :=
  ∃ c rest, text = c :: rest ∧ isSpace c = false ∧ c ≠ ']'

/-- A number starts with a digit, perhaps behind a minus sign. -/
theorem head_of_readNumber {text rest : List Char} {value : Json}
    (h : readNumber limit text = .done value rest) :
    ∃ c tail, text = c :: tail ∧
      (Decimal.isDigit c = true ∨
        c = '-' ∧ ∃ d more, tail = d :: more ∧ Decimal.isDigit d = true) := by
  have hwhole : (splitWhole (splitMinus text).2).1.isEmpty = false := by
    by_contra hne
    rw [Bool.not_eq_false] at hne
    simp only [readNumber, hne, if_true] at h
    cases h
  have hdigit (body : List Char) (hb : (splitWhole body).1.isEmpty = false) :
      ∃ d more, body = d :: more ∧ Decimal.isDigit d = true := by
    cases body with
    | nil => cases hb
    | cons d more =>
        refine ⟨d, more, rfl, ?_⟩
        by_contra hd
        unfold splitWhole at hb
        split at hb
        · rename_i heq
          cases heq
          exact hd rfl
        · rw [List.takeWhile_cons_of_neg hd] at hb
          cases hb
  obtain ⟨d, more, hbody, hd⟩ := hdigit _ hwhole
  unfold splitMinus at hbody
  split at hbody
  · exact ⟨'-', _, rfl, Or.inr ⟨rfl, d, more, hbody, hd⟩⟩
  · exact ⟨d, more, hbody, Or.inl hd⟩

theorem startsValue_of_readNumber {text rest : List Char} {value : Json}
    (h : readNumber limit text = .done value rest) : StartsValue text := by
  obtain ⟨c, tail, rfl, hc | ⟨rfl, -⟩⟩ := head_of_readNumber h
  · refine ⟨c, tail, rfl, ?_, ?_⟩
    · by_contra hs
      rw [Bool.not_eq_false] at hs
      simp only [isSpace, Bool.or_eq_true, decide_eq_true_eq] at hs
      rcases hs with ((rfl | rfl) | rfl) | rfl <;> cases hc
    · rintro rfl
      cases hc
  · exact ⟨'-', tail, rfl, rfl, by decide⟩

theorem readScalar_of_readNumber {text rest : List Char} {value : Json}
    (h : readNumber limit text = .done value rest) :
    readScalar limit text = .done value rest := by
  rw [← h]
  obtain ⟨c, tail, rfl, hc⟩ := head_of_readNumber h
  rw [readScalar]
  all_goals
    intro more he
    cases he
    rcases hc with hc | ⟨hc, d, _, hd, hdigit⟩
    · cases hc
    · cases hc <;> cases hd <;> cases hdigit

theorem readValue_of_readNumber {text rest : List Char} {value : Json} (fuel : Nat)
    (h : readNumber limit text = .done value rest) :
    readValue limit (fuel + 1) text = .done value rest := by
  rw [← readScalar_of_readNumber h]
  obtain ⟨c, tail, rfl, hc⟩ := head_of_readNumber h
  have hne : c ≠ '"' ∧ c ≠ '[' ∧ c ≠ '{' := by
    refine ⟨?_, ?_, ?_⟩ <;>
      · rintro rfl
        rcases hc with hc | ⟨hc, -⟩ <;> cases hc
  rw [readValue]
  all_goals simp [hne]

/-! ## Values without parts -/

theorem readValue_printString (fuel : Nat) (ascii : Bool) (text : String) (rest : List Char) :
    readValue limit (fuel + 1) (printString ascii text ++ rest) = .done (.string text) rest := by
  have ht : printString ascii text ++ rest =
      '"' :: (text.toList.flatMap (escapeChar ascii) ++ '"' :: rest) := by
    simp [printString]
  rw [ht, readValue, readString_printed, Reading.map_done]

theorem readValue_word {word rest : List Char} {value : Json} (fuel : Nat)
    (hs : readScalar limit (word ++ rest) = .done value rest)
    (hw : ∀ c ∈ (word ++ rest).head?, c ≠ '"' ∧ c ≠ '[' ∧ c ≠ '{') :
    readValue limit (fuel + 1) (word ++ rest) = .done value rest := by
  rw [← hs]
  cases ht : word ++ rest with
  | nil => rw [readValue] <;> simp
  | cons c tail =>
      have hc := hw c (by rw [ht]; rfl)
      rw [readValue]
      all_goals simp [hc]

/-- The words for infinity and for what is no number. -/
theorem readValue_numberWord (fuel : Nat) {x : Decimal} (hx : x.rounded = x ∨ x = .nan)
    (hi : x.isInfinite = true) (rest : List Char) :
    readValue limit (fuel + 1) (numberWord x ++ rest) = .done (.float x) rest := by
  rcases hx with hx | rfl
  · have hword (negative : Bool) : numberWord (.infinite negative) =
        if negative then '-' :: "Infinity".toList else "Infinity".toList := by
      cases negative <;> rfl
    rw [Decimal.eq_infinite_of_rounded_eq hx hi, hword]
    cases x.negative <;>
      · apply readValue_word
        · rfl
        · intro c hc
          cases hc
          decide
  · apply readValue_word
    · rfl
    · intro c hc
      cases hc
      decide

theorem readValue_floatChars (fuel : Nat) (hw : style.words = true) {x : Decimal}
    (hx : x.rounded = x ∨ x = .nan) {rest : List Char} (hr : EndsNumber rest) :
    readValue limit (fuel + 1) (floatChars style x ++ rest) = .done (.float x) rest := by
  unfold floatChars
  cases hi : x.isInfinite with
  | true =>
      rw [if_pos rfl, if_pos hw]
      exact readValue_numberWord fuel hx hi rest
  | false =>
      have hrounded : x.rounded = x := by
        rcases hx with hx | rfl
        · exact hx
        · rw [Decimal.isInfinite_nan] at hi
          cases hi
      rw [if_neg Bool.false_ne_true, Decimal.text_of_finite hi]
      apply readValue_of_readNumber
      rw [readNumber_finiteText limit x hr, hrounded]

/-! ## Values in general -/

theorem startsValue_chars (hw : style.words = true) (depth : Nat) {value : Json}
    (h : value.ReadableWithin limit) : StartsValue (chars style depth value) := by
  have hnil : EndsNumber [] := by
    intro c hc
    cases hc
  cases value with
  | null => exact ⟨'n', _, by rw [chars], rfl, by decide⟩
  | bool b =>
      cases b with
      | true => exact ⟨'t', _, by rw [chars], rfl, by decide⟩
      | false => exact ⟨'f', _, by rw [chars], rfl, by decide⟩
  | int n =>
      have hn := readNumber_intDigits h hnil
      rw [List.append_nil] at hn
      rw [chars]
      exact startsValue_of_readNumber hn
  | float x =>
      rw [chars, floatChars]
      cases hi : x.isInfinite with
      | true =>
          rw [if_pos rfl, if_pos hw, numberWord]
          split_ifs
          · exact ⟨'N', _, rfl, rfl, by decide⟩
          · exact ⟨'-', _, rfl, rfl, by decide⟩
          · exact ⟨'I', _, rfl, rfl, by decide⟩
      | false =>
          have hn := readNumber_finiteText limit x hnil
          rw [List.append_nil] at hn
          rw [if_neg Bool.false_ne_true, Decimal.text_of_finite hi]
          exact startsValue_of_readNumber hn
  | string text => exact ⟨'"', _, by rw [chars, printString]; rfl, rfl, by decide⟩
  | array items =>
      cases items with
      | nil => exact ⟨'[', _, by rw [chars], rfl, by decide⟩
      | cons item items => exact ⟨'[', _, by rw [chars]; rfl, rfl, by decide⟩
  | object fields =>
      cases fields with
      | nil => exact ⟨'{', _, by rw [chars], rfl, by decide⟩
      | cons entry fields => exact ⟨'{', _, by rw [chars]; rfl, rfl, by decide⟩

theorem endsNumber_charsOfItems (style : JsonStyle) (depth : Nat) (items : List Json)
    {rest : List Char} (h : EndsNumber rest) : EndsNumber (charsOfItems style depth items ++ rest) := by
  cases items with
  | nil => exact h
  | cons item items =>
      obtain ⟨blanks, hb, -⟩ := style.separator_eq depth
      rw [charsOfItems, hb]
      exact endsNumber_cons (by decide) _

theorem endsNumber_charsOfFields (style : JsonStyle) (depth : Nat) (fields : List (String × Json))
    {rest : List Char} (h : EndsNumber rest) : EndsNumber (charsOfFields style depth fields ++ rest) := by
  cases fields with
  | nil => exact h
  | cons entry fields =>
      obtain ⟨blanks, hb, -⟩ := style.separator_eq depth
      rw [charsOfFields, hb]
      exact endsNumber_cons (by decide) _

theorem skipSpace_lead (style : JsonStyle) (depth : Nat) (rest : List Char) :
    skipSpace (style.lead depth ++ rest) = skipSpace rest :=
  skipSpace_append fun _ hc => JsonStyle.isSpace_of_mem_lead hc

section Steps

variable {fuel depth : Nat} {text more rest : List Char} {key : String} {value : Json}
  {items : List Json} {fields : List (String × Json)}

theorem readItems_last
    (h : readValue limit fuel text = .done value (style.lead depth ++ ']' :: rest)) :
    readItems limit (fuel + 1) text = .done [value] rest := by
  rw [readItems, h, Reading.andThen_done, skipSpace_lead, skipSpace_cons rfl]
  rfl

theorem readItems_more
    (h : readValue limit fuel text = .done value (style.separator depth ++ more))
    (hs : skipSpace more = more) (hm : readItems limit fuel more = .done items rest) :
    readItems limit (fuel + 1) text = .done (value :: items) rest := by
  obtain ⟨blanks, hb, hspace⟩ := style.separator_eq depth
  rw [hb] at h
  rw [readItems, h, Reading.andThen_done, List.cons_append, skipSpace_cons rfl]
  simp only [skipSpace_append hspace, hs, hm, Reading.map_done]

/-- A key, its colon and the value after it. -/
theorem readFields_key (ascii : Bool) (hs : skipSpace text = text) :
    readFields limit (fuel + 1) (printString ascii key ++ ':' :: ' ' :: text) =
      (readValue limit fuel text).andThen fun value rest =>
        match skipSpace rest with
        | '}' :: rest => .done [(key, value)] rest
        | ',' :: rest => (readFields limit fuel (skipSpace rest)).map ((key, value) :: ·)
        | text => .fault text := by
  have ht : printString ascii key ++ ':' :: ' ' :: text =
      '"' :: (key.toList.flatMap (escapeChar ascii) ++ '"' :: ':' :: ' ' :: text) := by
    simp [printString]
  have hspace : skipSpace (' ' :: text) = text := by
    rw [skipSpace, List.dropWhile_cons_of_pos rfl]
    exact hs
  rw [ht, readFields, readString_printed, Reading.andThen_done, skipSpace_cons rfl]
  exact congrArg (fun text => (readValue limit fuel text).andThen _) hspace

theorem readFields_last (ascii : Bool) (hs : skipSpace text = text)
    (h : readValue limit fuel text = .done value (style.lead depth ++ '}' :: rest)) :
    readFields limit (fuel + 1) (printString ascii key ++ ':' :: ' ' :: text) =
      .done [(key, value)] rest := by
  rw [readFields_key ascii hs, h, Reading.andThen_done, skipSpace_lead, skipSpace_cons rfl]
  rfl

theorem readFields_more (ascii : Bool) (hs : skipSpace text = text)
    (h : readValue limit fuel text = .done value (style.separator depth ++ more))
    (hm : skipSpace more = more) (hf : readFields limit fuel more = .done fields rest) :
    readFields limit (fuel + 1) (printString ascii key ++ ':' :: ' ' :: text) =
      .done ((key, value) :: fields) rest := by
  obtain ⟨blanks, hb, hspace⟩ := style.separator_eq depth
  rw [hb] at h
  rw [readFields_key ascii hs, h, Reading.andThen_done, List.cons_append, skipSpace_cons rfl]
  simp only [skipSpace_append hspace, hm, hf, Reading.map_done]

end Steps

theorem skipSpace_printString (ascii : Bool) (text : String) (rest : List Char) :
    skipSpace (printString ascii text ++ rest) = printString ascii text ++ rest := by
  rw [printString, List.cons_append, List.cons_append]
  exact skipSpace_cons rfl

theorem skipSpace_chars (hw : style.words = true) (depth : Nat) {value : Json}
    (h : value.ReadableWithin limit) (rest : List Char) :
    skipSpace (chars style depth value ++ rest) = chars style depth value ++ rest := by
  obtain ⟨c, tail, hc, hs, -⟩ := startsValue_chars hw depth h
  rw [hc, List.cons_append, skipSpace_cons hs]

theorem length_separator_pos (style : JsonStyle) (depth : Nat) :
    0 < (style.separator depth).length := by
  obtain ⟨blanks, hb, -⟩ := style.separator_eq depth
  rw [hb]
  simp

/-! ## The three readers -/

def ReadsValues (style : JsonStyle) (limit : Option Nat) (fuel : Nat) : Prop :=
  ∀ (value : Json) (depth : Nat) (rest : List Char), value.ReadableWithin limit → EndsNumber rest →
    (chars style depth value).length ≤ fuel →
      readValue limit fuel (chars style depth value ++ rest) = .done value rest

/-- The items of an array from one on are read; `outer` is the depth of the array. -/
def ReadsItems (style : JsonStyle) (limit : Option Nat) (fuel : Nat) : Prop :=
  ∀ (item : Json) (items : List Json) (depth outer : Nat) (rest : List Char),
    ReadableItems limit (item :: items) →
    (chars style depth item).length + (charsOfItems style depth items).length < fuel →
      readItems limit fuel (chars style depth item ++ (charsOfItems style depth items ++
        (style.lead outer ++ ']' :: rest))) = .done (item :: items) rest

/-- The entries of an object from one on are read; `outer` is the depth of the object. -/
def ReadsFields (style : JsonStyle) (limit : Option Nat) (fuel : Nat) : Prop :=
  ∀ (key : String) (value : Json) (fields : List (String × Json)) (depth outer : Nat)
    (rest : List Char), ReadableFields limit ((key, value) :: fields) →
    (chars style depth value).length + (charsOfFields style depth fields).length < fuel →
      readFields limit fuel (printString style.ascii key ++ ':' :: ' ' ::
        (chars style depth value ++ (charsOfFields style depth fields ++
          (style.lead outer ++ '}' :: rest)))) = .done ((key, value) :: fields) rest

variable {fuel : Nat}

theorem endsNumber_close (style : JsonStyle) {c : Char}
    (h : Decimal.isDigit c = false ∧ c ≠ '.' ∧ c ≠ 'e' ∧ c ≠ 'E') (outer : Nat)
    (rest : List Char) : EndsNumber (style.lead outer ++ c :: rest) :=
  endsNumber_lead_append style outer (endsNumber_cons h rest)

theorem readValue_array (hw : style.words = true) (hi : ReadsItems style limit fuel)
    (items : List Json) (depth : Nat) (rest : List Char) (hv : ReadableItems limit items)
    (hl : (chars style depth (.array items)).length ≤ fuel + 1) :
    readValue limit (fuel + 1) (chars style depth (.array items) ++ rest) =
      .done (.array items) rest := by
  cases items with
  | nil =>
      rw [chars]
      rfl
  | cons item items =>
      rw [chars] at hl ⊢
      simp only [List.length_append, List.length_cons, List.length_nil] at hl
      have hitems := hi item items (depth + 1) depth rest hv (by omega)
      obtain ⟨c, tail, hc, hs, hb⟩ := startsValue_chars hw (depth + 1) hv.1
      simp only [hc, List.cons_append, List.append_assoc, List.nil_append] at hitems ⊢
      rw [readValue, skipSpace_lead, skipSpace_cons hs]
      split
      · rename_i heq
        cases heq
        exact absurd rfl hb
      · rw [hitems, Reading.map_done]

theorem readValue_object (hf : ReadsFields style limit fuel) (fields : List (String × Json))
    (depth : Nat) (rest : List Char) (hn : (Dict.keys fields).Nodup)
    (hv : ReadableFields limit fields)
    (hl : (chars style depth (.object fields)).length ≤ fuel + 1) :
    readValue limit (fuel + 1) (chars style depth (.object fields) ++ rest) =
      .done (.object fields) rest := by
  cases fields with
  | nil =>
      rw [chars]
      rfl
  | cons entry fields =>
      obtain ⟨key, value⟩ := entry
      rw [chars] at hl ⊢
      simp only [List.length_append, List.length_cons, List.length_nil] at hl
      have hfields := hf key value fields (depth + 1) depth rest hv (by omega)
      simp only [List.cons_append, List.append_assoc, List.nil_append] at hfields ⊢
      rw [readValue, skipSpace_lead, skipSpace_printString]
      split
      · rename_i heq
        simp [printString] at heq
      · rw [hfields, Reading.map_done, Dict.ofEntries_of_nodup hn]

theorem readsValues_succ (hw : style.words = true) (hi : ReadsItems style limit fuel)
    (hf : ReadsFields style limit fuel) : ReadsValues style limit (fuel + 1) := by
  intro value depth rest hv hr hl
  cases value with
  | null =>
      rw [chars]
      exact readValue_word fuel rfl (by intro c hc; cases hc; decide)
  | bool b =>
      cases b <;> rw [chars] <;>
        exact readValue_word fuel rfl (by intro c hc; cases hc; decide)
  | int n =>
      rw [chars]
      exact readValue_of_readNumber fuel (readNumber_intDigits hv hr)
  | float x =>
      rw [chars]
      exact readValue_floatChars fuel hw hv hr
  | string text =>
      rw [chars]
      exact readValue_printString fuel style.ascii text rest
  | array items => exact readValue_array hw hi items depth rest hv hl
  | object fields => exact readValue_object hf fields depth rest hv.1 hv.2 hl

theorem readsItems_succ (hw : style.words = true) (hval : ReadsValues style limit fuel)
    (hi : ReadsItems style limit fuel) : ReadsItems style limit (fuel + 1) := by
  intro item items depth outer rest hv hl
  have hclose := endsNumber_close style (by decide : Decimal.isDigit ']' = false ∧ _) outer rest
  cases items with
  | nil =>
      rw [charsOfItems, List.nil_append]
      exact readItems_last (hval item depth _ hv.1 hclose (by omega))
  | cons next items =>
      have hpos := length_separator_pos style depth
      have hend := endsNumber_charsOfItems style depth (next :: items) hclose
      have hvalue := hval item depth _ hv.1 hend
      rw [charsOfItems] at hl hvalue ⊢
      simp only [List.length_append] at hl
      have hitems := hi next items depth outer rest hv.2 (by omega)
      simp only [List.append_assoc] at hvalue ⊢
      exact readItems_more (hvalue (by omega)) (skipSpace_chars hw depth hv.2.1 _) hitems

theorem readsFields_succ (hw : style.words = true) (hval : ReadsValues style limit fuel)
    (hf : ReadsFields style limit fuel) : ReadsFields style limit (fuel + 1) := by
  intro key value fields depth outer rest hv hl
  have hclose := endsNumber_close style (by decide : Decimal.isDigit '}' = false ∧ _) outer rest
  have hstart := skipSpace_chars hw depth hv.1
  cases fields with
  | nil =>
      rw [charsOfFields, List.nil_append]
      exact readFields_last _ (hstart _) (hval value depth _ hv.1 hclose (by omega))
  | cons entry fields =>
      obtain ⟨next, nextValue⟩ := entry
      have hpos := length_separator_pos style depth
      have hend := endsNumber_charsOfFields style depth ((next, nextValue) :: fields) hclose
      have hvalue := hval value depth _ hv.1 hend
      rw [charsOfFields] at hl hvalue ⊢
      simp only [List.length_append, List.length_cons] at hl
      have hfields := hf next nextValue fields depth outer rest hv.2 (by omega)
      simp only [List.append_assoc, List.cons_append] at hvalue ⊢
      exact readFields_more _ (hstart _) (hvalue (by omega)) (skipSpace_printString _ _ _) hfields

theorem reads (hw : style.words = true) (fuel : Nat) :
    ReadsValues style limit fuel ∧ ReadsItems style limit fuel ∧ ReadsFields style limit fuel := by
  induction fuel with
  | zero =>
      refine ⟨?_, fun _ _ _ _ _ _ hl => by omega, fun _ _ _ _ _ _ _ hl => by omega⟩
      intro value depth rest hv _ hl
      obtain ⟨c, tail, hc, -⟩ := startsValue_chars hw depth hv
      rw [hc] at hl
      simp at hl
  | succ fuel ih =>
      obtain ⟨hval, hi, hf⟩ := ih
      exact ⟨readsValues_succ hw hi hf, readsItems_succ hw hval hi, readsFields_succ hw hval hf⟩

/-- A value that keeps to the limit reads as itself once it has been printed. -/
theorem readWithin_print (hw : style.words = true) {value : Json}
    (h : value.ReadableWithin limit) : readWithin limit (value.print style) = .ok value := by
  have hnil : EndsNumber [] := by
    intro c hc
    cases hc
  have hv := (reads hw ((chars style 0 value).length + 1)).1 value 0 [] h hnil (by omega)
  have hs := skipSpace_chars hw 0 h []
  rw [List.append_nil] at hv hs
  have hall : readAll limit (chars style 0 value) = .ok value := by
    unfold readAll
    rw [hs, hv]
    rfl
  rw [readWithin, print, String.toList_ofList, ofCharsWithin, hall]
  rfl

theorem read_print (hw : style.words = true) {value : Json} (h : value.Readable) :
    read (value.print style) = .ok value :=
  readWithin_print hw h

end Json

end Sitewright
