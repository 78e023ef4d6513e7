import CavityRepair.Document.Writer
import CavityRepair.Proofs.Document.Numbers
/-!
# Documents read back

The text of a document reads back as the document, provided that its numbers do (`Document.Kept`).
`Document.tokens` are the tokens of the text. The scanner finds them in the text, whatever follows
it, and the reader puts them together again, whatever lies on its stack.

* `Document.Kept.scan_write`: the text of a document scans to its tokens.
* `Document.Kept.run_tokens`: the tokens of a document read as the document.
* `Document.Kept.read?_write`: a document reads back.
-/
namespace CavityRepair.Document

/-- A document whose numbers are not changed by being written: whole numbers have 64 bits, signed or
unsigned, and doubles are carried by their words. -/
inductive Kept : Document → Prop where
  | null : Kept .null
  | bool (b : Bool) : Kept (.bool b)
  | integer {n : Int} (h : Fits n) : Kept (.integer n)
  | float {x : Float} (h : Carried x) : Kept (.float x)
  | string (s : String) : Kept (.string s)
  | array {items : List Document} (h : ∀ item ∈ items, Kept item) : Kept (.array items)
  | object {fields : List (String × Document)} (h : ∀ field ∈ fields, Kept field.2) :
      Kept (.object fields)

theorem Kept.array_map {α : Type} {write : α → Document} {xs : List α}
    (h : ∀ x ∈ xs, (write x).Kept) : (Document.array (xs.map write)).Kept :=
  .array (List.forall_mem_map.2 h)

theorem Kept.ofNat {n : Nat} (h : n < UInt64.size) : (Document.ofNat n).Kept :=
  .integer ⟨by omega, Int.ofNat_lt.2 h⟩

theorem Kept.ofFloat {x : Float} (h : Carried x) : (Document.ofFloat x).Kept := by
  unfold Document.ofFloat
  split
  · exact .float h
  · exact .null

mutual

/-- The tokens of the text of a document. -/
def tokens : Document → List Token
  | .null => [.word "null".toList]
  | .bool b => [.word (if b then "true" else "false").toList]
  | .integer n => [.word (toString n).toList]
  | .float x => [.word (floatLiteral x).toList]
  | .string s => [.string s]
  | .array items => .openArray :: (itemTokens items ++ [.closeArray])
  | .object fields => .openObject :: (fieldTokens fields ++ [.closeObject])

/-- The tokens of items with commas between them. -/
def itemTokens : List Document → List Token
  | [] => []
  | [item] => tokens item
  | item :: items => tokens item ++ .comma :: itemTokens items

/-- The tokens of fields with commas between them. -/
def fieldTokens : List (String × Document) → List Token
  | [] => []
  | [(name, value)] => .string name :: .colon :: tokens value
  | (name, value) :: fields =>
    .string name :: .colon :: (tokens value ++ .comma :: fieldTokens fields)

end

theorem itemTokens_cons_cons (item next : Document) (items : List Document) :
    itemTokens (item :: next :: items) = tokens item ++ .comma :: itemTokens (next :: items) := by
  rw [itemTokens]
  exact List.cons_ne_nil next items

theorem fieldTokens_cons_cons (name : String) (value : Document) (next : String × Document)
    (fields : List (String × Document)) : fieldTokens ((name, value) :: next :: fields) =
      .string name :: .colon :: (tokens value ++ .comma :: fieldTokens (next :: fields)) := by
  rw [fieldTokens]
  exact List.cons_ne_nil next fields

/-! ## Words and punctuation -/

/-- A text that ends the word before it. -/
def Closes (rest : List Char) : Prop := ∀ c, rest.head? = some c → isWordLetter c = false

theorem Scan.run_cons {scan scan' : Scan} {c : Char} {tokens : List Token}
    (h : scan.step c = some (scan', tokens)) (rest : List Char) :
    scan.run (c :: rest) = (scan'.run rest).map (tokens ++ ·) := by
  rw [Scan.run, h, Option.map_eq_bind]
  rfl

/-- A step that completes no token. -/
theorem Scan.run_silent {scan scan' : Scan} {c : Char} (h : scan.step c = some (scan', []))
    (rest : List Char) : scan.run (c :: rest) = scan'.run rest := by
  simpa using Scan.run_cons h rest

theorem Scan.start_of_isWordLetter {c : Char} (h : isWordLetter c) :
    Scan.start c = some (.word [c], []) := by
  unfold Scan.start
  rw [if_neg, if_neg, if_pos h]
  · rintro rfl
    cases h
  · rintro (rfl | rfl | rfl | rfl) <;> cases h

theorem Scan.run_word_append {letters rest : List Char} (hletters : letters.all isWordLetter)
    (hrest : Closes rest) (collected : List Char) :
    (Scan.word collected).run (letters ++ rest) =
      (Scan.outside.run rest).map (.word (collected.reverse ++ letters) :: ·) := by
  induction letters generalizing collected with
  | nil =>
    cases rest with
    | nil => simp [Scan.run, Scan.finish]
    | cons c rest =>
      -- The character that ends the word is scanned as between two tokens.
      have hc : isWordLetter c = false := hrest c rfl
      rw [List.nil_append, List.append_nil]
      cases hstart : Scan.start c with
      | none => simp [Scan.run, Scan.step, hc, hstart]
      | some answer =>
        have hword : (Scan.word collected).step c =
            some (answer.1, .word collected.reverse :: answer.2) := by
          simp [Scan.step, hc, hstart]
        have houtside : Scan.outside.step c = some answer := hstart
        rw [Scan.run_cons hword, Scan.run_cons houtside, Option.map_map]
        rfl
  | cons c letters ih =>
    rw [List.all_cons, Bool.and_eq_true] at hletters
    have hstep : (Scan.word collected).step c = some (.word (c :: collected), []) := by
      simp [Scan.step, hletters.1]
    rw [List.cons_append, Scan.run_silent hstep, ih hletters.2]
    simp

/-- A word is scanned to its end. -/
theorem Scan.run_word {letters rest : List Char} (h : IsWord letters) (hrest : Closes rest) :
    Scan.outside.run (letters ++ rest) = (Scan.outside.run rest).map (.word letters :: ·) := by
  obtain ⟨hne, hletters⟩ := h
  cases letters with
  | nil => exact absurd rfl hne
  | cons c letters =>
    rw [List.all_cons, Bool.and_eq_true] at hletters
    have hstep : Scan.outside.step c = some (.word [c], []) :=
      Scan.start_of_isWordLetter hletters.1
    rw [List.cons_append, Scan.run_silent hstep, Scan.run_word_append hletters.2 hrest]
    rfl

/-! ## Strings -/

/-- Four digits of an escape, or what is left of them. -/
theorem Scan.run_unit {digits : List Char} {value unit : Nat}
    (h : hexFrom? value digits = some unit) (hne : digits ≠ []) (units : List Nat)
    (rest : List Char) : (Scan.unit units digits.length value).run (digits ++ rest) =
      (Scan.string (unit :: units)).run rest := by
  induction digits generalizing value with
  | nil => exact absurd rfl hne
  | cons c digits ih =>
    obtain ⟨d, hd, hrest⟩ := Option.bind_eq_some_iff.1 h
    cases digits with
    | nil =>
      cases hrest
      exact Scan.run_silent (by simp [Scan.step, hd]) rest
    | cons next digits =>
      have hstep : (Scan.unit units (c :: next :: digits).length value).step c =
          some (.unit units (next :: digits).length (16 * value + d), []) := by
        simp [Scan.step, hd]
      rw [List.cons_append, Scan.run_silent hstep]
      exact ih hrest (List.cons_ne_nil _ _)

theorem hexFrom?_padded (k n : Nat) : hexFrom? 0 (List.replicate k '0' ++ hexText n) = some n := by
  have hzeros : hexFrom? 0 (List.replicate k '0') = some 0 := by
    induction k with
    | zero => rfl
    | succ k ih => exact ih
  rw [hexFrom?_append, hzeros, Option.bind_some, hexFrom?_hexText]

/-- An escape of one letter. -/
theorem Scan.run_letter {letter c : Char} (h : escaped? letter = some c) (hu : letter ≠ 'u')
    (units : List Nat) (rest : List Char) : (Scan.string units).run ('\\' :: letter :: rest) =
      (Scan.string (c.toNat :: units)).run rest := by
  have hstep : (Scan.escape units).step letter = some (.string (c.toNat :: units), []) := by
    rw [Scan.step, if_neg hu, h]
    rfl
  have hbackslash : (Scan.string units).step '\\' = some (.escape units, []) := rfl
  rw [Scan.run_silent hbackslash, Scan.run_silent hstep]

/-- An escape of four digits. -/
theorem Scan.run_control {n : Nat} (h : n < 0x20) (units : List Nat) (rest : List Char) :
    (Scan.string units).run
      (['\\', 'u'] ++ List.replicate (4 - (hexText n).length) '0' ++ hexText n ++ rest) =
      (Scan.string (n :: units)).run rest := by
  have hlength : (List.replicate (4 - (hexText n).length) '0' ++ hexText n).length = 4 := by
    have hall : ∀ n < 0x20,
        (List.replicate (4 - (hexText n).length) '0' ++ hexText n).length = 4 := by decide
    exact hall n h
  have hunit := Scan.run_unit (hexFrom?_padded (4 - (hexText n).length) n)
    (List.append_ne_nil_of_right_ne_nil _ (hexText_ne_nil n)) units rest
  rw [hlength] at hunit
  have hbackslash : (Scan.string units).step '\\' = some (.escape units, []) := rfl
  have hu : (Scan.escape units).step 'u' = some (.unit units 4 0, []) := rfl
  rw [List.append_assoc ['\\', 'u'], List.append_assoc, List.cons_append,
    Scan.run_silent hbackslash, List.cons_append, Scan.run_silent hu, List.nil_append]
  exact hunit

/-- An escaped character is scanned as the character. -/
theorem Scan.run_escape (c : Char) (units : List Nat) (rest : List Char) :
    (Scan.string units).run (Document.escape c ++ rest) =
      (Scan.string (c.toNat :: units)).run rest := by
  unfold Document.escape
  -- The seven characters that have an escape of one letter come first.
  iterate 7
    split
    · next h =>
      subst h
      exact Scan.run_letter rfl (by decide) units rest
  split
  · next h => exact Scan.run_control h units rest
  · next hquote hbackslash _ _ _ _ _ hcontrol =>
    have hstep : (Scan.string units).step c = some (.string (c.toNat :: units), []) := by
      rw [Scan.step, if_neg hquote, if_neg hbackslash, if_neg hcontrol]
    exact Scan.run_silent hstep rest

theorem Scan.run_escaped (cs : List Char) (units : List Nat) (rest : List Char) :
    (Scan.string units).run (cs.flatMap Document.escape ++ rest) =
      (Scan.string ((cs.map Char.toNat).reverse ++ units)).run rest := by
  induction cs generalizing units with
  | nil => rfl
  | cons c cs ih =>
    rw [List.flatMap_cons, List.append_assoc, Scan.run_escape, ih]
    simp

/-- No character is a unit of a pair. -/
theorem characters?_map_toNat (cs : List Char) : characters? (cs.map Char.toNat) = some cs := by
  have hunit : ∀ c : Char, isHigh c.toNat = false ∧ isLow c.toNat = false := by
    intro c
    have hvalid : c.toNat < 0xd800 ∨ 0xdfff < c.toNat ∧ c.toNat < 0x110000 := c.valid
    simp only [isHigh, isLow, decide_eq_false_iff_not]
    omega
  induction cs with
  | nil => rfl
  | cons c cs ih =>
    obtain ⟨hhigh, hlow⟩ := hunit c
    cases cs with
    | nil => simp [characters?, hhigh, hlow]
    | cons next cs =>
      simp only [List.map_cons] at ih
      simp [characters?, hhigh, hlow, ih]

theorem Scan.run_quoted (s : String) (rest : List Char) :
    Scan.outside.run ((quoted s).toList ++ rest) =
      (Scan.outside.run rest).map (.string s :: ·) := by
  have hopen : Scan.outside.step '"' = some (.string [], []) := rfl
  have hclose : (Scan.string (s.toList.map Char.toNat).reverse).step '"' =
      some (.outside, [.string s]) := by
    rw [Scan.step, if_pos rfl, List.reverse_reverse, characters?_map_toNat, Option.map_some,
      String.ofList_toList]
  have htext : (quoted s).toList ++ rest =
      '"' :: (s.toList.flatMap Document.escape ++ '"' :: rest) := by
    simp [quoted, String.toList_append]
  rw [htext, Scan.run_silent hopen, Scan.run_escaped, List.append_nil, Scan.run_cons hclose]
  rfl

/-! ## Scanning -/

/-- A text has certain tokens, whatever follows that ends a word. -/
def ScansTo (text : List Char) (tokens : List Token) : Prop :=
  ∀ rest, Closes rest →
    Scan.outside.run (text ++ rest) = (Scan.outside.run rest).map (tokens ++ ·)

theorem closes_cons {c : Char} (h : isWordLetter c = false) (rest : List Char) :
    Closes (c :: rest) := by
  intro d hd
  cases hd
  exact h

theorem Closes.append {a b : List Char} (ha : Closes a) (hb : Closes b) : Closes (a ++ b) := by
  cases a with
  | nil => exact hb
  | cons c a => exact closes_cons (ha c rfl) (a ++ b)

theorem scansTo_nil : ScansTo [] [] := fun rest _ => by simp

theorem scansTo_word {letters : List Char} (h : IsWord letters) : ScansTo letters [.word letters] :=
  fun _ hrest => Scan.run_word h hrest

theorem scansTo_quoted (s : String) : ScansTo (quoted s).toList [.string s] :=
  fun rest _ => Scan.run_quoted s rest

theorem ScansTo.append {a b : List Char} {s t : List Token} (ha : ScansTo a s) (hb : ScansTo b t)
    (hclose : Closes b) : ScansTo (a ++ b) (s ++ t) := by
  intro rest hrest
  rw [List.append_assoc, ha _ (hclose.append hrest), hb rest hrest, Option.map_map]
  simp [Function.comp_def]

theorem ScansTo.cons {c : Char} {token : Token} (h : Scan.start c = some (.outside, [token]))
    {text : List Char} {tokens : List Token} (htext : ScansTo text tokens) :
    ScansTo (c :: text) (token :: tokens) := by
  intro rest hrest
  have hstep : Scan.outside.step c = some (.outside, [token]) := h
  rw [List.cons_append, Scan.run_cons hstep, htext rest hrest, Option.map_map]
  rfl

theorem scansTo_writeItems {items : List Document}
    (h : ∀ item ∈ items, ScansTo item.write.toList (tokens item)) :
    ScansTo (writeItems items).toList (itemTokens items) := by
  induction items with
  | nil => exact scansTo_nil
  | cons item items ih =>
    rw [List.forall_mem_cons] at h
    cases items with
    | nil => exact h.1
    | cons next items =>
      have htext : (writeItems (item :: next :: items)).toList =
          item.write.toList ++ ',' :: (writeItems (next :: items)).toList := by
        simp [writeItems, String.toList_append]
      rw [htext, itemTokens_cons_cons]
      exact h.1.append ((ih h.2).cons rfl) (closes_cons rfl _)

theorem scansTo_writeFields {fields : List (String × Document)}
    (h : ∀ field ∈ fields, ScansTo field.2.write.toList (tokens field.2)) :
    ScansTo (writeFields fields).toList (fieldTokens fields) := by
  have hfield : ∀ {name : String} {text : List Char} {value : List Token}, ScansTo text value →
      ScansTo ((quoted name).toList ++ ':' :: text) (.string name :: .colon :: value) :=
    fun htext => (scansTo_quoted _).append (htext.cons rfl) (closes_cons rfl _)
  induction fields with
  | nil => exact scansTo_nil
  | cons field fields ih =>
    obtain ⟨name, value⟩ := field
    rw [List.forall_mem_cons] at h
    cases fields with
    | nil =>
      have htext : (writeFields [(name, value)]).toList =
          (quoted name).toList ++ ':' :: value.write.toList := by
        simp [writeFields, String.toList_append]
      rw [htext]
      exact hfield h.1
    | cons next fields =>
      have htext : (writeFields ((name, value) :: next :: fields)).toList =
          (quoted name).toList ++ ':' ::
            (value.write.toList ++ ',' :: (writeFields (next :: fields)).toList) := by
        simp [writeFields, String.toList_append]
      rw [htext, fieldTokens_cons_cons]
      exact hfield (h.1.append ((ih h.2).cons rfl) (closes_cons rfl _))

/-- The text of a document has the tokens of the document. -/
theorem Kept.scan_write {d : Document} (h : d.Kept) : ScansTo d.write.toList (tokens d) := by
  induction h with
  | null => exact scansTo_word ⟨by decide, by decide⟩
  | bool b => cases b <;> exact scansTo_word ⟨by decide, by decide⟩
  | integer _ => exact scansTo_word (isWord_toString _)
  | float _ => exact scansTo_word (isWord_floatLiteral _)
  | string s => exact scansTo_quoted s
  | @array items _ ih =>
    have htext : (write (.array items)).toList = '[' :: ((writeItems items).toList ++ [']']) := by
      simp [write, String.toList_append]
    rw [htext, tokens]
    exact ((scansTo_writeItems ih).append (scansTo_nil.cons rfl) (closes_cons rfl _)).cons rfl
  | @object fields _ ih =>
    have htext : (write (.object fields)).toList =
        '\x7b' :: ((writeFields fields).toList ++ ['\x7d']) := by
      simp [write, String.toList_append]
    rw [htext, tokens]
    exact ((scansTo_writeFields ih).append (scansTo_nil.cons rfl) (closes_cons rfl _)).cons rfl

/-! ## Reading -/

theorem Reader.run_cons {reader reader' : Reader} {token : Token}
    (h : reader.step token = some reader') (rest : List Token) :
    reader.run (token :: rest) = reader'.run rest := by
  rw [Reader.run, h]
  rfl

/-- Tokens are read as a document, wherever a value may stand and whatever follows. -/
def ReadsAs (tokens : List Token) (d : Document) : Prop :=
  ∀ atStart stack rest, (Reader.value atStart stack).run (tokens ++ rest) =
    (Reader.behind d stack).run rest

theorem readsAs_word {letters : List Char} {d : Document} (h : word? letters = some d) :
    ReadsAs [.word letters] d := by
  intro atStart stack rest
  have hstep : (Reader.value atStart stack).step (.word letters) = some (.behind d stack) := by
    rw [Reader.step, h]
    rfl
  exact Reader.run_cons hstep rest

theorem readsAs_string (s : String) : ReadsAs [.string s] (.string s) :=
  fun _ _ rest => Reader.run_cons rfl rest

/-- The items of an array are put behind those that are there. -/
theorem run_itemTokens {items : List Document} (h : ∀ item ∈ items, ReadsAs (tokens item) item)
    (hne : items ≠ []) (atStart : Bool) (before : List Document) (stack : List Frame)
    (rest : List Token) :
    (Reader.value atStart (.array before :: stack)).run
      (itemTokens items ++ .closeArray :: rest) =
      (Reader.behind (.array (before.reverse ++ items)) stack).run rest := by
  induction items generalizing atStart before with
  | nil => exact absurd rfl hne
  | cons item items ih =>
    rw [List.forall_mem_cons] at h
    cases items with
    | nil =>
      rw [itemTokens, h.1, Reader.run_cons rfl, List.reverse_cons]
    | cons next items =>
      rw [itemTokens_cons_cons, List.append_assoc, h.1, List.cons_append, Reader.run_cons rfl,
        ih h.2 (List.cons_ne_nil _ _)]
      simp

/-- The fields of an object are put behind those that are there. -/
theorem run_fieldTokens {fields : List (String × Document)}
    (h : ∀ field ∈ fields, ReadsAs (tokens field.2) field.2) (hne : fields ≠ []) (atStart : Bool)
    (before : List (String × Document)) (stack : List Frame) (rest : List Token) :
    (Reader.name before atStart stack).run (fieldTokens fields ++ .closeObject :: rest) =
      (Reader.behind (.object (before.reverse ++ fields)) stack).run rest := by
  induction fields generalizing atStart before with
  | nil => exact absurd rfl hne
  | cons field fields ih =>
    obtain ⟨name, value⟩ := field
    rw [List.forall_mem_cons] at h
    cases fields with
    | nil =>
      rw [fieldTokens, List.cons_append, Reader.run_cons rfl, List.cons_append, Reader.run_cons rfl,
        h.1, Reader.run_cons rfl, List.reverse_cons]
    | cons next fields =>
      rw [fieldTokens_cons_cons, List.cons_append, Reader.run_cons rfl, List.cons_append,
        Reader.run_cons rfl, List.append_assoc, h.1, List.cons_append, Reader.run_cons rfl,
        ih h.2 (List.cons_ne_nil _ _)]
      simp

/-- The tokens of a document read as the document. -/
theorem Kept.run_tokens {d : Document} (h : d.Kept) : ReadsAs (tokens d) d := by
  induction h with
  | null => exact readsAs_word rfl
  | bool b => cases b <;> exact readsAs_word rfl
  | integer h => exact readsAs_word (word?_toString h)
  | float h => exact readsAs_word h
  | string s => exact readsAs_string s
  | @array items _ ih =>
    intro atStart stack rest
    rw [tokens, List.cons_append, Reader.run_cons rfl, List.append_assoc]
    cases items with
    | nil => exact Reader.run_cons rfl rest
    | cons item items => exact run_itemTokens ih (List.cons_ne_nil _ _) true [] stack rest
  | @object fields _ ih =>
    intro atStart stack rest
    rw [tokens, List.cons_append, Reader.run_cons rfl, List.append_assoc]
    cases fields with
    | nil => exact Reader.run_cons rfl rest
    | cons field fields => exact run_fieldTokens ih (List.cons_ne_nil _ _) true [] stack rest

/-- A document whose numbers are kept reads back from its text. -/
theorem Kept.read?_write {d : Document} (h : d.Kept) : read? d.write = some d := by
  have htokens : tokens? d.write.toList = some (tokens d) := by
    simpa [tokens?, Scan.run, Scan.finish] using h.scan_write [] (fun _ hc => by cases hc)
  have hread := h.run_tokens false [] []
  rw [List.append_nil] at hread
  rw [read?, htokens, Option.bind_eq_bind, Option.bind_some, hread]
  rfl

end CavityRepair.Document
