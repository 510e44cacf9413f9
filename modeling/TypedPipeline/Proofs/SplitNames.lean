import Mathlib.Computability.Language
import Mathlib.Data.Char
import Mathlib.Order.Interval.Set.Basic
import TypedPipeline.Proofs.Text.Pieces
import TypedPipeline.SplitNames

/-!
# Lists of split names as texts

A list of names is kept as one text with commas between the names. Cutting a text and joining the
pieces gives the text back, always; joining pieces and cutting the text gives the pieces back only
if there is a piece and none has a comma. Names of splits have none. That there may be no name at
all is the case for which the empty text is set apart; it is no other list's text, since a name is
not empty.

Which texts are names is said by the language `[A-Za-z0-9][A-Za-z0-9_-]*`, and what the pieces of a
text are by the places at which they stand.

## Implementation notes

Both directions are about partial functions, and neither is the inverse of the other on the nose.
Encoding is defined on lists of names and is undone by decoding. Decoding is defined on all texts,
and the text it was given comes back under a condition that is spelled out: it is empty, or its
pieces are names. For other texts encoding what was decoded is refused.

The language is that of Mathlib, with the two classes of characters as sets. Membership in the
language and the test of the program are compared character by character.

## Main definitions

* `Text.oneOf` — the texts of one character of a class
* `SplitNames.pattern` — the language of names

## Main results

* `SplitNames.isName_iff_mem_pattern` — names are the texts of the language
* `SplitNames.decode_of_encode?` — names that are encoded are found again
* `SplitNames.encode?_decode_iff` — which texts are encoded again, and as what
* `SplitNames.encode?_decode_inverse` — both ways together
-/

namespace TypedPipeline

open scoped Computability

/-! ### Languages of characters -/

namespace Text

/-- The texts of one character of a class. -/
def oneOf (cs : Set Char) : Language Char := {text | ∃ c ∈ cs, text = [c]}

/-- Repeating a class of characters gives the texts of its characters. -/
theorem mem_kstar_oneOf {cs : Set Char} {text : List Char} :
    text ∈ (oneOf cs)∗ ↔ ∀ c ∈ text, c ∈ cs := by
  rw [Language.mem_kstar]
  constructor
  · rintro ⟨texts, rfl, htexts⟩ c hc
    obtain ⟨one, hone, hc⟩ := List.mem_flatten.mp hc
    obtain ⟨d, hd, rfl⟩ := htexts one hone
    rw [List.mem_singleton.mp hc]
    exact hd
  · intro h
    exact ⟨text.map ([·]), by simp [← List.flatMap_def],
      List.forall_mem_map.mpr fun c hc => ⟨c, h c hc, rfl⟩⟩

end Text

/-! ### Names -/

namespace SplitNames

/-- The characters with which a name may begin: `[A-Za-z0-9]`. -/
def initials : Set Char := Set.Icc 'A' 'Z' ∪ Set.Icc 'a' 'z' ∪ Set.Icc '0' '9'

/-- The characters with which a name may go on: `[A-Za-z0-9_-]`. -/
def followers : Set Char := initials ∪ {'_', '-'}

/-- The language of names: `[A-Za-z0-9][A-Za-z0-9_-]*`. -/
def pattern : Language Char := Text.oneOf initials * (Text.oneOf followers)∗

theorem mem_initials_iff {c : Char} : c ∈ initials ↔ c.isAlphanum = true := by
  have hclasses : c.isAlphanum = (decide ('A' ≤ c ∧ c ≤ 'Z') ||
      (decide ('a' ≤ c) && decide (c ≤ 'z')) || (decide ('0' ≤ c) && decide (c ≤ '9'))) := rfl
  simp only [hclasses, initials, Set.mem_union, Set.mem_Icc, Bool.or_eq_true, Bool.and_eq_true,
    decide_eq_true_iff]

theorem mem_followers_iff {c : Char} :
    c ∈ followers ↔ (c.isAlphanum || c == '_' || c == '-') = true := by
  simp only [followers, Set.mem_union, mem_initials_iff, Set.mem_insert_iff,
    Set.mem_singleton_iff, Bool.or_eq_true, beq_iff_eq, or_assoc]

/-- The texts that may be names are those of the language. -/
theorem isName_iff_mem_pattern {s : String} : isName s = true ↔ s.toList ∈ pattern := by
  rw [isName, pattern, Language.mem_mul]
  constructor
  · intro h
    cases hchars : s.toList with
    | nil => simp [hchars] at h
    | cons c rest =>
      simp only [hchars, Bool.and_eq_true, List.all_eq_true] at h
      exact ⟨[c], ⟨c, mem_initials_iff.mpr h.1, rfl⟩, rest,
        Text.mem_kstar_oneOf.mpr fun d hd => mem_followers_iff.mpr (h.2 d hd), rfl⟩
  · rintro ⟨_, ⟨c, hc, rfl⟩, rest, hrest, hchars⟩
    rw [← hchars, List.singleton_append, Bool.and_eq_true, List.all_eq_true]
    exact ⟨mem_initials_iff.mp hc,
      fun d hd => mem_followers_iff.mp (Text.mem_kstar_oneOf.mp hrest d hd)⟩

/-- A name is not empty and has no comma. These two facts are all that cutting and joining need. -/
theorem of_isName {s : String} (h : isName s = true) : s.toList ≠ [] ∧ ',' ∉ s.toList := by
  obtain ⟨_, ⟨c, hc, rfl⟩, rest, hrest, hchars⟩ := Language.mem_mul.mp (isName_iff_mem_pattern.mp h)
  have hword : ∀ d ∈ c :: rest, d ∈ followers :=
    List.forall_mem_cons.mpr ⟨.inl hc, Text.mem_kstar_oneOf.mp hrest⟩
  rw [← hchars]
  refine ⟨List.cons_ne_nil _ _, fun hcomma => ?_⟩
  exact absurd (mem_followers_iff.mp (hword ',' hcomma)) (by decide)

/-! ### Lists and texts

The empty text stands for no names and is the text of no names. All other texts have at least one
piece. -/

/-- A list is encoded exactly if all its members are names. The text is then the members with commas
between them. -/
theorem encode?_eq_some_iff {names : List String} {text : String} :
    encode? names = some text ↔ (∀ name ∈ names, isName name = true) ∧
      String.ofList (Text.joinWith ',' (names.map String.toList)) = text := by
  simp [encode?, invalid?]

theorem decode_of_ne_empty {text : String} (h : text ≠ "") :
    decode text = Text.splitText ',' text := by
  have hempty : text.isEmpty = false := by simpa using h
  rw [decode, hempty, if_neg Bool.false_ne_true]

/-- What was encoded is found again. -/
theorem decode_of_encode? {names : List String} {text : String} (h : encode? names = some text) :
    decode text = names := by
  obtain ⟨hnames, rfl⟩ := encode?_eq_some_iff.mp h
  cases names with
  | nil => rfl
  | cons name rest =>
    have hcomma : ∀ part ∈ (name :: rest).map String.toList, ',' ∉ part :=
      List.forall_mem_map.mpr fun s hs => (of_isName (hnames s hs)).2
    have hpieces := Text.pieces_joinWith (by simp) hcomma
    have hne : Text.joinWith ',' (name.toList :: rest.map String.toList) ≠ [] :=
      Text.joinWith_ne_nil (of_isName (hnames name List.mem_cons_self)).1 _
    rw [decode_of_ne_empty (by simpa using hne), Text.splitText, String.toList_ofList, hpieces]
    simp

/-- What a text stands for that is not empty are names exactly if its pieces are in the language. -/
theorem forall_mem_decode_iff {text : String} (h : text ≠ "") :
    (∀ name ∈ decode text, isName name = true) ↔
      ∀ p : Text.Place, p.IsPiece ',' text.toList → p.run ∈ pattern := by
  rw [decode_of_ne_empty h, Text.splitText, List.forall_mem_map]
  simp only [isName_iff_mem_pattern, String.toList_ofList, Text.mem_pieces_iff]
  constructor
  · intro hpieces p hp
    exact hpieces p.run ⟨p, hp, rfl⟩
  · rintro hplaces _ ⟨p, hp, rfl⟩
    exact hplaces p hp

/-- The names for which a text stands are joined to that text. So no two texts stand for one
list. -/
theorem joinWith_decode (text : String) :
    String.ofList (Text.joinWith ',' ((decode text).map String.toList)) = text := by
  by_cases h : text = ""
  · rw [h]
    rfl
  · have hchars : String.toList ∘ String.ofList = id := funext fun _ => String.toList_ofList
    rw [decode_of_ne_empty h, Text.splitText, List.map_map, hchars, List.map_id,
      Text.joinWith_pieces, String.ofList_toList]

/-- What is decoded is encoded again exactly if the text is empty or all its pieces are names. It is
encoded as the text from which it was decoded. -/
theorem encode?_decode_iff {text again : String} :
    encode? (decode text) = some again ↔
      (text = "" ∨ ∀ p : Text.Place, p.IsPiece ',' text.toList → p.run ∈ pattern) ∧
        again = text := by
  rw [encode?_eq_some_iff, joinWith_decode, eq_comm (a := text)]
  refine and_congr_left fun _ => ?_
  by_cases h : text = ""
  · simp [h, decode]
  · rw [forall_mem_decode_iff h, or_iff_right h]

/-- A piece may be empty, and then it is no name. -/
example : encode? (decode "train,,eval") = none := by decide +kernel

/-- Encoding accepts exactly the lists of texts of the language `[A-Za-z0-9][A-Za-z0-9_-]*`, and
decoding gives every list back that was accepted: no name is lost, repeated or moved, and of no
names there are none again. The other way round, what a text stands for is accepted exactly if the
text is empty or all its pieces between commas are in the language, and then the text is given
back. -/
theorem encode?_decode_inverse (names : List String) (text : String) :
    ((∃ encoded, encode? names = some encoded) ↔ ∀ name ∈ names, name.toList ∈ pattern) ∧
      (∀ encoded, encode? names = some encoded → decode encoded = names) ∧
      ((∃ again, encode? (decode text) = some again) ↔
        text = "" ∨ ∀ p : Text.Place, p.IsPiece ',' text.toList → p.run ∈ pattern) ∧
      ∀ again, encode? (decode text) = some again → again = text := by
  refine ⟨?_, fun encoded h => decode_of_encode? h, ?_, fun again h => (encode?_decode_iff.mp h).2⟩
  · simp only [encode?_eq_some_iff, isName_iff_mem_pattern, exists_and_left, exists_eq', and_true]
  · simp only [encode?_decode_iff, exists_and_left, exists_eq, and_true]

/-- A list with a repeated name, and a text with two pieces. Both come back as they were. -/
theorem encode?_decode_inverse_train :
    encode? ["train", "eval-2", "train"] = some "train,eval-2,train" ∧
      decode "train,eval-2,train" = ["train", "eval-2", "train"] ∧
      encode? (decode "b_1,a") = some "b_1,a" ∧
      ∀ p : Text.Place, p.IsPiece ',' "b_1,a".toList → p.run ∈ pattern := by
  have hnames : encode? ["train", "eval-2", "train"] = some "train,eval-2,train" := by
    decide +kernel
  have htext : encode? (decode "b_1,a") = some "b_1,a" := by decide +kernel
  have h := encode?_decode_inverse ["train", "eval-2", "train"] "b_1,a"
  exact ⟨hnames, h.2.1 _ hnames, htext, (h.2.2.1.mp ⟨_, htext⟩).resolve_left (by decide)⟩

end SplitNames

end TypedPipeline
