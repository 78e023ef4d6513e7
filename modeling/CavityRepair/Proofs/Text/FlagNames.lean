import CavityRepair.Attempt
import CavityRepair.Text.FlagNames
import Mathlib.Data.List.Nodup
/-!
# Reading flag words back

Whatever the bits of a word are, named or not, the text of the word reads back as the word. The
names must be such that the text can be taken apart again (`FlagNames.Legible`): they differ, no bar
and no blank occurs in them, and none looks like a number.

* `FlagNames.map_trim_pieces`: what is joined by bars comes apart into the same items.
* `FlagNames.foldl_words`: the items stand for all bits of the word and for no other.
* `FlagNames.Legible.read?_write`: a word reads back.
-/
namespace CavityRepair

/-! ## Items between bars -/

/-- A text that cannot be mistaken for several items, nor loses characters when it is trimmed. -/
structure Plain (item : List Char) : Prop where
  ne_nil : item ≠ []
  not_bar : ∀ c ∈ item, c ≠ '|'
  not_blank : ∀ c ∈ item, isBlank c = false

/-- A text that trimming leaves as it is. -/
structure Trimmed (s : List Char) : Prop where
  first : ∃ c, s.head? = some c ∧ isBlank c = false
  last : ∃ c, s.getLast? = some c ∧ isBlank c = false

theorem Trimmed.ne_nil {s : List Char} (h : Trimmed s) : s ≠ [] := by
  obtain ⟨c, hc, -⟩ := h.first
  rintro rfl
  cases hc

theorem Plain.trimmed {item : List Char} (h : Plain item) : Trimmed item := by
  refine ⟨⟨item.head h.ne_nil, List.head?_eq_some_head _, ?_⟩,
    ⟨item.getLast h.ne_nil, List.getLast?_eq_some_getLast _, ?_⟩⟩
  · exact h.not_blank _ (List.head_mem _)
  · exact h.not_blank _ (List.getLast_mem _)

theorem dropWhile_isBlank {lead s : List Char} (hlead : ∀ c ∈ lead, isBlank c)
    (hs : ∃ c, s.head? = some c ∧ isBlank c = false) : (lead ++ s).dropWhile isBlank = s := by
  obtain ⟨c, hc, hblank⟩ := hs
  rw [List.dropWhile_append_of_pos hlead]
  cases s with
  | nil => cases hc
  | cons first rest =>
    cases hc
    exact List.dropWhile_cons_of_neg (by simp [hblank])

/-- Trimming takes away the blanks at both ends and no more. -/
theorem Trimmed.trim_append {s : List Char} (h : Trimmed s) {lead trail : List Char}
    (hlead : ∀ c ∈ lead, isBlank c) (htrail : ∀ c ∈ trail, isBlank c) :
    trim (lead ++ s ++ trail) = s := by
  obtain ⟨first, hfirst, hfirstBlank⟩ := h.first
  have hfront : (s ++ trail).head? = some first := by rw [List.head?_append, hfirst]; rfl
  unfold trim
  rw [List.append_assoc, dropWhile_isBlank hlead ⟨first, hfront, hfirstBlank⟩, List.reverse_append,
    dropWhile_isBlank (by simpa using htrail) (by simpa using h.last), List.reverse_reverse]

theorem Trimmed.trim_eq {s : List Char} (h : Trimmed s) : trim s = s := by
  simpa using h.trim_append (List.forall_mem_nil _) (List.forall_mem_nil _)

namespace FlagNames

theorem pieces_of_not_bar {a : List Char} (h : ∀ c ∈ a, c ≠ '|') : pieces a = [a] := by
  induction a with
  | nil => rfl
  | cons c rest ih =>
    rw [List.forall_mem_cons] at h
    rw [pieces, if_neg h.1, ih h.2]

theorem pieces_append_bar {a : List Char} (h : ∀ c ∈ a, c ≠ '|') (b : List Char) :
    pieces (a ++ '|' :: b) = a :: pieces b := by
  induction a with
  | nil => rfl
  | cons c rest ih =>
    rw [List.forall_mem_cons] at h
    rw [List.cons_append, pieces, if_neg h.1, ih h.2]

/-- What is joined by bars comes apart again. -/
theorem map_trim_pieces {items : List (List Char)} (hitems : ∀ item ∈ items, Plain item)
    (hne : items ≠ []) {lead : List Char} (hlead : ∀ c ∈ lead, c = ' ') :
    (pieces (lead ++ [' ', '|', ' '].intercalate items)).map trim = items := by
  induction items generalizing lead with
  | nil => exact absurd rfl hne
  | cons item rest ih =>
    have hbar : ∀ c ∈ lead, c ≠ '|' := fun c hc => by rw [hlead c hc]; decide
    have hblank : ∀ c ∈ lead, isBlank c := fun c hc => by rw [hlead c hc]; decide
    rw [List.forall_mem_cons] at hitems
    obtain ⟨hitem, hrest⟩ := hitems
    cases rest with
    | nil =>
      rw [List.intercalate_singleton, pieces_of_not_bar (List.forall_mem_append.2
        ⟨hbar, hitem.not_bar⟩), List.map_singleton]
      have htrim := hitem.trimmed.trim_append hblank (List.forall_mem_nil _)
      rw [List.append_nil] at htrim
      rw [htrim]
    | cons next others =>
      have hjoin : lead ++ [' ', '|', ' '].intercalate (item :: next :: others) =
          (lead ++ item ++ [' ']) ++
            '|' :: ([' '] ++ [' ', '|', ' '].intercalate (next :: others)) := by
        simp [List.intercalate_cons_cons]
      have hpiece : ∀ c ∈ lead ++ item ++ [' '], c ≠ '|' := by
        simp only [List.forall_mem_append, List.forall_mem_singleton]
        exact ⟨⟨hbar, hitem.not_bar⟩, by decide⟩
      have hspace : ∀ c ∈ [' '], c = ' ' := List.forall_mem_singleton.2 rfl
      rw [hjoin, pieces_append_bar hpiece, List.map_cons,
        hitem.trimmed.trim_append hblank (List.forall_mem_singleton.2 rfl),
        ih hrest (List.cons_ne_nil _ _) hspace]

theorem trimmed_intercalate {items : List (List Char)} (hitems : ∀ item ∈ items, Plain item)
    (hne : items ≠ []) : Trimmed ([' ', '|', ' '].intercalate items) := by
  induction items with
  | nil => exact absurd rfl hne
  | cons item rest ih =>
    rw [List.forall_mem_cons] at hitems
    have hitem := hitems.1.trimmed
    cases rest with
    | nil => rwa [List.intercalate_singleton]
    | cons next others =>
      have htail := ih hitems.2 (List.cons_ne_nil _ _)
      obtain ⟨first, hfirst, hblank⟩ := hitem.first
      obtain ⟨last, hlast, hblank'⟩ := htail.last
      rw [List.intercalate_cons_cons]
      refine ⟨⟨first, ?_, hblank⟩, ⟨last, ?_, hblank'⟩⟩
      · rw [List.append_assoc, List.head?_append, hfirst]
        rfl
      · rw [List.getLast?_append, hlast]
        rfl

/-! ## Words -/

variable {width : Nat} {names : FlagNames width}

/-- Names that can be told apart, from each other and from numbers. -/
structure Legible (names : FlagNames width) : Prop where
  nodup : (names.map (·.1)).Nodup
  plain : ∀ entry ∈ names, Plain entry.1.toList
  not_number : ∀ entry ∈ names, entry.1.toList.head? ≠ some '0'

/-- The item for the bits without a name, none if there are no such bits. -/
def unnamed (rest : BitVec width) : List (List Char × BitVec width) :=
  if rest = 0 then [] else [('0' :: 'x' :: hexText rest.toNat, rest)]

/-- The items of a word, each with the bits that it stands for. -/
def entries (names : FlagNames width) (bits : BitVec width) : List (List Char × BitVec width) :=
  (names.filter fun entry => bits.getLsbD entry.2).map
      (fun entry => (entry.1.toList, BitVec.twoPow width entry.2))
    ++ unnamed (bits &&& ~~~known names)

theorem map_fst_entries (names : FlagNames width) (bits : BitVec width) :
    (entries names bits).map (·.1) = items names bits := by
  simp only [entries, items, unnamed, List.map_append, List.map_map]
  congr 1
  split <;> rfl

/-! ## Bits -/

theorem getLsbD_foldl_or (words : List (BitVec width)) (i : Nat) :
    (words.foldl (· ||| ·) 0).getLsbD i = words.any (·.getLsbD i) := by
  suffices hfrom : ∀ bits : BitVec width,
      (words.foldl (· ||| ·) bits).getLsbD i = (bits.getLsbD i || words.any (·.getLsbD i)) by
    simpa using hfrom 0
  induction words with
  | nil => simp
  | cons word rest ih =>
    intro bits
    rw [List.foldl_cons, ih, BitVec.getLsbD_or, List.any_cons, Bool.or_assoc]

theorem getLsbD_twoPow_fin (b : Fin width) (i : Nat) :
    (BitVec.twoPow width b).getLsbD i = decide (b.val = i) := by
  rw [BitVec.getLsbD_twoPow, decide_eq_true b.isLt, Bool.true_and]

theorem getLsbD_known (names : FlagNames width) (i : Nat) :
    (known names).getLsbD i = names.any fun entry => decide (entry.2.val = i) := by
  have hfold : known names =
      (names.map fun entry => BitVec.twoPow width entry.2).foldl (· ||| ·) 0 := by
    rw [known, List.foldl_map]
  simp only [hfold, getLsbD_foldl_or, List.any_map, Function.comp_def, getLsbD_twoPow_fin]

theorem any_unnamed (rest : BitVec width) (i : Nat) :
    (unnamed rest).any (·.2.getLsbD i) = rest.getLsbD i := by
  unfold unnamed
  split
  · next hzero => simp [hzero]
  · simp

/-- The items stand for all bits of the word and for no other. -/
theorem foldl_words (names : FlagNames width) (bits : BitVec width) :
    ((entries names bits).map (·.2)).foldl (· ||| ·) 0 = bits := by
  apply BitVec.eq_of_getLsbD_eq
  intro i hi
  have hnamed : (names.filter fun entry => bits.getLsbD entry.2).any
      (fun entry => (BitVec.twoPow width entry.2).getLsbD i) =
      (bits.getLsbD i && (known names).getLsbD i) := by
    rw [getLsbD_known, List.any_filter, Bool.eq_iff_iff]
    simp only [List.any_eq_true, Bool.and_eq_true, getLsbD_twoPow_fin, decide_eq_true_eq]
    constructor
    · rintro ⟨entry, hentry, hbit, rfl⟩
      exact ⟨hbit, entry, hentry, rfl⟩
    · rintro ⟨hbit, entry, hentry, rfl⟩
      exact ⟨entry, hentry, hbit, rfl⟩
  have hrest : (bits &&& ~~~known names).getLsbD i =
      (bits.getLsbD i && !(known names).getLsbD i) := by
    simp [hi]
  rw [getLsbD_foldl_or, List.any_map, entries, List.any_append, List.any_map]
  simp only [Function.comp_def]
  rw [hnamed, any_unnamed, hrest, ← Bool.and_or_distrib_left, Bool.or_not_self, Bool.and_true]

/-! ## Reading back -/

/-- A hexadecimal digit is neither a bar nor a blank. -/
theorem ne_bar_of_hexDigit? {c : Char} (h : (hexDigit? c).isSome) :
    c ≠ '|' ∧ isBlank c = false := by
  have hrange : 48 ≤ c.toNat ∧ c.toNat ≤ 57 ∨ 97 ≤ c.toNat ∧ c.toNat ≤ 102 ∨
      65 ≤ c.toNat ∧ c.toNat ≤ 70 := by
    unfold hexDigit? at h
    split at h
    · next hc => exact .inl hc
    · split at h
      · next hc => exact .inr (.inl hc)
      · split at h
        · next hc => exact .inr (.inr hc)
        · cases h
  refine ⟨?_, ?_⟩
  · rintro rfl
    revert hrange
    decide
  · simp only [isBlank, blankRanges, List.any_cons, List.any_nil, Bool.or_false,
      Bool.or_eq_false_iff, decide_eq_false_iff_not]
    omega

theorem plain_hexText (n : Nat) : Plain ('0' :: 'x' :: hexText n) := by
  have hdigit : ∀ c ∈ hexText n, c ≠ '|' ∧ isBlank c = false := fun c hc =>
    ne_bar_of_hexDigit? (isSome_of_hexFrom? (hexFrom?_hexText n) c hc)
  refine ⟨List.cons_ne_nil _ _, ?_, ?_⟩ <;>
    simp only [List.forall_mem_cons]
  · exact ⟨by decide, by decide, fun c hc => (hdigit c hc).1⟩
  · exact ⟨by decide, by decide, fun c hc => (hdigit c hc).2⟩

/-- The number of a word reads as the word. -/
theorem item?_hexText (names : FlagNames width) (rest : BitVec width) :
    item? names ('0' :: 'x' :: hexText rest.toNat) = some rest := by
  have hlt : rest.toNat < 1 <<< width := by
    rw [Nat.one_shiftLeft]
    exact rest.isLt
  change number? (hexText rest.toNat) = some rest
  unfold number?
  -- No digit is a plus sign.
  have hplus : ∀ digits, hexText rest.toNat ≠ '+' :: digits := by
    intro digits htext
    have hsome := isSome_of_hexFrom? (hexFrom?_hexText rest.toNat) '+' (by simp [htext])
    cases hsome
  split
  · next digits htext => exact absurd htext (hplus digits)
  · rw [hex?_hexText]
    simp [hlt]

/-- A name reads as its bit. -/
theorem Legible.item?_name (h : names.Legible) {entry : String × Fin width}
    (hentry : entry ∈ names) :
    item? names entry.1.toList = some (BitVec.twoPow width entry.2) := by
  have hfind : names.find? (fun other => other.1.toList = entry.1.toList) = some entry := by
    obtain ⟨other, hother⟩ := Option.isSome_iff_exists.1 (List.find?_isSome.2
      ⟨entry, hentry, decide_eq_true rfl⟩ :
        (names.find? fun other => other.1.toList = entry.1.toList).isSome)
    have hname := List.find?_some hother
    rw [decide_eq_true_eq, String.toList_inj] at hname
    rw [hother, List.inj_on_of_nodup_map h.nodup (List.mem_of_find?_eq_some hother) hentry hname]
  have hnumber := h.not_number entry hentry
  unfold item?
  split
  · next digits htext =>
    rw [htext] at hnumber
    exact absurd rfl hnumber
  · rw [hfind]
    rfl

theorem Legible.of_mem_entries (h : names.Legible) {bits : BitVec width}
    {entry : List Char × BitVec width} (hentry : entry ∈ entries names bits) :
    Plain entry.1 ∧ item? names entry.1 = some entry.2 := by
  rcases List.mem_append.1 hentry with hnamed | hrest
  · obtain ⟨named, hmem, rfl⟩ := List.mem_map.1 hnamed
    have hnamed := (List.mem_filter.1 hmem).1
    exact ⟨h.plain named hnamed, h.item?_name hnamed⟩
  · unfold unnamed at hrest
    split at hrest
    · cases hrest
    · rw [List.mem_singleton] at hrest
      rw [hrest]
      exact ⟨plain_hexText _, item?_hexText names _⟩

/-- A word reads back from its text. -/
theorem Legible.read?_write (h : names.Legible) (bits : BitVec width) :
    read? names (write names bits) = some bits := by
  have hwords := foldl_words names bits
  unfold read? write
  rw [← map_fst_entries]
  by_cases hempty : entries names bits = []
  · rw [hempty] at hwords ⊢
    rw [← hwords]
    rfl
  · have hne : (entries names bits).map (·.1) ≠ [] := by simpa using hempty
    have hplain : ∀ item ∈ (entries names bits).map (·.1), Plain item := by
      intro item hitem
      obtain ⟨entry, hentry, rfl⟩ := List.mem_map.1 hitem
      exact (h.of_mem_entries hentry).1
    have htrimmed := trimmed_intercalate hplain hne
    have hpieces := map_trim_pieces hplain hne (List.forall_mem_nil _)
    have hitems : ((entries names bits).map (·.1)).mapM (item? names) =
        some ((entries names bits).map (·.2)) := by
      rw [List.mapM_map]
      exact mapM_eq_some_map fun entry hentry => (h.of_mem_entries hentry).2
    rw [List.nil_append] at hpieces
    have hread := calc
      (pieces ([' ', '|', ' '].intercalate ((entries names bits).map (·.1)))).mapM
          (fun piece => item? names (trim piece))
      _ = ((pieces ([' ', '|', ' '].intercalate ((entries names bits).map (·.1)))).map trim).mapM
          (item? names) := by rw [List.mapM_map]; rfl
      _ = ((entries names bits).map (·.1)).mapM (item? names) := by rw [hpieces]
      _ = some ((entries names bits).map (·.2)) := hitems
    rw [htrimmed.trim_eq, if_neg htrimmed.ne_nil, hread]
    exact congrArg some hwords

/-- Whether names are legible can be told from their characters. -/
theorem legible_of_all (hnodup : (names.map (·.1)).Nodup)
    (hnames : names.all fun entry => entry.1.toList ≠ [] ∧ entry.1.toList.head? ≠ some '0' ∧
      entry.1.toList.all fun c => c ≠ '|' ∧ isBlank c = false) : names.Legible := by
  simp only [List.all_eq_true, decide_eq_true_eq] at hnames
  refine ⟨hnodup, fun entry hentry => ?_, fun entry hentry => (hnames entry hentry).2.1⟩
  obtain ⟨hne, -, hchars⟩ := hnames entry hentry
  exact ⟨hne, fun c hc => (hchars c hc).1, fun c hc => (hchars c hc).2⟩

end FlagNames

theorem TetFlags.legible_names : TetFlags.names.Legible :=
  FlagNames.legible_of_all (by decide +kernel) (by decide +kernel)

theorem FaceFlags.legible_names : FaceFlags.names.Legible :=
  FlagNames.legible_of_all (by decide +kernel) (by decide +kernel)

/-- The flags of a tetrahedron read back, whatever they are. -/
theorem TetFlags.read?_text (flags : TetFlags) : TetFlags.read? flags.text = some flags := by
  unfold TetFlags.read? TetFlags.text
  rw [String.toList_ofList, TetFlags.legible_names.read?_write]
  rfl

/-- The flags of a boundary face read back, whatever they are. -/
theorem FaceFlags.read?_text (flags : FaceFlags) : FaceFlags.read? flags.text = some flags := by
  unfold FaceFlags.read? FaceFlags.text
  rw [String.toList_ofList, FaceFlags.legible_names.read?_write]
  rfl

end CavityRepair
