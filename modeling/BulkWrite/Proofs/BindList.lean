import BulkWrite.CommandLine.Run
import BulkWrite.Proofs.Readers
import Mathlib

/-!
The printed bind list. Literals of all kinds but floats are read back one after the other, whatever
the texts among them contain, and so the line determines the values. Main statement:
`literals_read_back`.
-/
namespace BulkWrite

open Text (Apart Reader)

def numerals : List Char := ['-', '0', '1', '2', '3', '4', '5', '6', '7', '8', '9']

def integerReader : Reader Int :=
  (Reader.run numerals).filterMap fun digits => (String.ofList digits).toInt?

theorem mem_numerals_of_isDigit {c : Char} (h : c.isDigit = true) : c ∈ numerals := by
  obtain ⟨hlow, hhigh⟩ := Char.isDigit_iff_toNat.1 h
  have hlow : 48 ≤ c.toNat := hlow
  have hhigh : c.toNat ≤ 57 := hhigh
  rw [← Char.ofNat_toNat c]
  interval_cases c.toNat <;> decide

theorem mem_numerals_of_mem_repr {n : Int} {c : Char} (h : c ∈ n.repr.toList) : c ∈ numerals := by
  have hdigits : ∀ m : Nat, c ∈ m.repr.toList → c ∈ numerals := by
    intro m hc
    rw [Nat.toList_repr] at hc
    exact mem_numerals_of_isDigit (Nat.isDigit_of_mem_toDigits (by decide) (by decide) hc)
  cases n with
  | ofNat m => exact hdigits m h
  | negSucc m =>
    change c ∈ ("-" ++ (m + 1).repr).toList at h
    rw [String.toList_append] at h
    rcases List.mem_append.1 h with hsign | hc
    · exact List.mem_cons.2 (.inl (List.mem_singleton.1 hsign))
    · exact hdigits (m + 1) hc

theorem toList_repr_ne_nil (n : Int) : n.repr.toList ≠ [] := by
  intro h
  have hempty : "".toInt? = none := by cbv
  have hn := Int.toInt?_repr (a := n)
  rw [String.toList_eq_nil_iff.1 h, hempty] at hn
  cases hn

theorem recovers_integer (n : Int) : integerReader.Recovers numerals n.repr.toList n := by
  have hdigits := Reader.recovers_run (toList_repr_ne_nil n) fun _ => mem_numerals_of_mem_repr
  refine hdigits.filterMap ?_
  rw [String.ofList_toList, Int.toInt?_repr]

def hexValue (c : Char) : Nat :=
  if c.isDigit then c.toNat - '0'.toNat else c.toNat - 'A'.toNat + 10

def hexBytes : List Char → List UInt8
  | c :: d :: digits => .ofNat (16 * hexValue c + hexValue d) :: hexBytes digits
  | _ => []

theorem hexValue_digit : ∀ n < 16, hexValue n.digitChar.toUpper = n := by
  decide

theorem quote_ne_hexDigit : ∀ n < 16, n.digitChar.toUpper ≠ '\'' := by
  decide

theorem hexBytes_byteText (b : UInt8) (digits : List Char) :
    hexBytes (byteText b ++ digits) = b :: hexBytes digits := by
  have hb := b.toNat_lt
  have hhigh : b.toNat / 16 < 16 := by omega
  have hlow : b.toNat % 16 < 16 := by omega
  have hsum : 16 * (b.toNat / 16) + b.toNat % 16 = b.toNat := by omega
  change UInt8.ofNat (16 * hexValue _ + hexValue _) :: hexBytes digits = _
  rw [hexValue_digit _ hhigh, hexValue_digit _ hlow, hsum, UInt8.ofNat_toNat]

theorem hexBytes_flatMap (bytes : List UInt8) : hexBytes (bytes.flatMap byteText) = bytes := by
  induction bytes with
  | nil => rfl
  | cons b bytes ih => rw [List.flatMap_cons, hexBytes_byteText, ih]

namespace SqlValue

def isFloat : SqlValue → Bool
  | float _ => true
  | _ => false

def integerLiteralReader : Reader SqlValue := integerReader.map fun n => int (.ofInt n)

def textReader : Reader SqlValue := (Reader.quoted '\'' '\'').map fun body => text (.ofList body)

def blobReader : Reader SqlValue :=
  ((Reader.quoted '\'' '\'').map fun digits => blob (hexBytes digits)).after 'X'

def literalReader : Reader SqlValue := .byHead fun
  | 'N' => .keyword ['N', 'U', 'L', 'L'] (by decide) null
  | 'T' => .keyword ['T', 'R', 'U', 'E'] (by decide) (bool true)
  | 'F' => .keyword ['F', 'A', 'L', 'S', 'E'] (by decide) (bool false)
  | '\'' => textReader
  | 'X' => blobReader
  | _ => integerLiteralReader

/-- What a literal may not be followed by: it would go on. -/
def literalStops : List Char := '\'' :: numerals

theorem recovers_int (n : Int64) :
    literalReader.Recovers literalStops (int n).literal.toList (int n) := by
  have hn := (recovers_integer n.toInt).map fun n => int (.ofInt n)
  rw [Int64.ofInt_toInt] at hn
  obtain ⟨c, printed, hprinted⟩ := List.exists_cons_of_ne_nil (toList_repr_ne_nil n.toInt)
  have hc : c ∈ numerals := mem_numerals_of_mem_repr (hprinted ▸ List.mem_cons_self)
  rw [literal, Int.toString_eq_repr, hprinted]
  rw [hprinted] at hn
  refine (Reader.Recovers.byHead ?_).mono (List.subset_cons_self _ _)
  fin_cases hc <;> exact hn

theorem recovers_text (s : String) :
    literalReader.Recovers literalStops (text s).literal.toList (text s) := by
  have hbody := (Reader.reads_quoted '\'' '\'').recovers s.toList
  have hs := hbody.map fun body => text (.ofList body)
  rw [String.ofList_toList] at hs
  rw [literal, String.toList_ofList]
  exact hs.byHead.mono (by simp [literalStops])

theorem quote_notMem_byteText (b : UInt8) : '\'' ∉ byteText b := by
  have hb := b.toNat_lt
  have hhigh := quote_ne_hexDigit (b.toNat / 16) (by omega)
  have hlow := quote_ne_hexDigit (b.toNat % 16) (by omega)
  simp [byteText, hhigh.symm, hlow.symm]

theorem recovers_blob (bytes : List UInt8) :
    literalReader.Recovers literalStops (blob bytes).literal.toList (blob bytes) := by
  -- No digit needs to be doubled.
  have hescape : Text.escape '\'' (bytes.flatMap byteText) = bytes.flatMap byteText := by
    refine Text.escape_eq_self fun hmem => ?_
    obtain ⟨b, -, hb⟩ := List.mem_flatMap.1 hmem
    exact quote_notMem_byteText b hb
  have hdigits := (Reader.reads_quoted '\'' '\'').recovers (bytes.flatMap byteText)
  have hbytes := (hdigits.map fun digits => blob (hexBytes digits)).after 'X'
  rw [hexBytes_flatMap, Text.quoted, hescape] at hbytes
  rw [literal, String.toList_ofList]
  exact hbytes.byHead.mono (by simp [literalStops])

theorem recovers_literal {v : SqlValue} (h : v.isFloat = false) :
    literalReader.Recovers literalStops v.literal.toList v := by
  cases v with
  | null => exact (Reader.recovers_keyword _ _ null).byHead.mono (List.nil_subset _)
  | bool b =>
    cases b with
    | true => exact (Reader.recovers_keyword _ _ (bool true)).byHead.mono (List.nil_subset _)
    | false => exact (Reader.recovers_keyword _ _ (bool false)).byHead.mono (List.nil_subset _)
  | int n => exact recovers_int n
  | float x => cases h
  | text s => exact recovers_text s
  | blob bytes => exact recovers_blob bytes

/-- The values whose literals make up a text. -/
def ofLiterals? (line : List Char) : Option (List SqlValue) :=
  if line = [] then some []
  else match (literalReader.sepBy [',', ' ']).read line with
    | some (values, []) => some values
    | _ => none

theorem ofLiterals?_intercalate {values : List SqlValue} (h : ∀ v ∈ values, v.isFloat = false) :
    ofLiterals? (", ".intercalate (values.map literal)).toList = some values := by
  rw [ofLiterals?]
  by_cases hvalues : values = []
  · rw [hvalues]
    rfl
  · have hread := Reader.Recovers.sepBy_comma (by decide) hvalues
      (fun v hv => recovers_literal (h v hv)) [] (by simp)
    rw [List.append_nil] at hread
    rw [hread, if_neg]
    -- What is read is not the empty text.
    intro hnil
    have hlt := (literalReader.sepBy [',', ' ']).shortens hread
    simp [hnil] at hlt

theorem literals_inj {values others : List SqlValue} (h : ∀ v ∈ values, v.isFloat = false)
    (h' : ∀ v ∈ others, v.isFloat = false)
    (heq : ", ".intercalate (values.map literal) = ", ".intercalate (others.map literal)) :
    values = others := by
  have hread := ofLiterals?_intercalate h
  rw [heq, ofLiterals?_intercalate h'] at hread
  exact (Option.some.inj hread).symm

theorem bindingsText_inj {values others : List SqlValue} (h : ∀ v ∈ values, v.isFloat = false)
    (h' : ∀ v ∈ others, v.isFloat = false)
    (heq : CommandLine.bindingsText values = CommandLine.bindingsText others) : values = others := by
  refine literals_inj h h' ?_
  simpa only [CommandLine.bindingsText, String.append_assoc, String.append_right_inj,
    String.append_left_inj] using heq

/-- The literals of a list of values without floats, joined by commas, give back the list, and so
different lists are printed differently. The literal of a text can be read from left to right in
front of anything but a quote: it ends where the text does. -/
theorem literals_read_back :
    (∀ values : List SqlValue, (∀ v ∈ values, v.isFloat = false) →
        ofLiterals? (", ".intercalate (values.map literal)).toList = some values) ∧
      (∀ values others : List SqlValue, (∀ v ∈ values, v.isFloat = false) →
        (∀ v ∈ others, v.isFloat = false) →
        (", ".intercalate (values.map literal) = ", ".intercalate (others.map literal) →
          values = others) ∧
        (CommandLine.bindingsText values = CommandLine.bindingsText others → values = others)) ∧
      ∀ (s : String) (rest : List Char), Apart ['\''] rest →
        (Reader.quoted '\'' '\'').read ((text s).literal.toList ++ rest) = some (s.toList, rest) := by
  refine ⟨fun values h => ofLiterals?_intercalate h,
    fun values others h h' => ⟨literals_inj h h', bindingsText_inj h h'⟩, fun s rest hrest => ?_⟩
  rw [literal, String.toList_ofList]
  exact (Reader.reads_quoted '\'' '\'').recovers s.toList rest hrest

/-- One text imitates the literals of the other list, with its separator and its quotes. -/
theorem literals_read_back_imitation :
    let values := [text "a', NULL, 'b", blob [0, 255], int (-1)]
    let line := "'a'', NULL, ''b', X'00FF', -1"
    (∀ v ∈ values, v.isFloat = false) ∧
      ", ".intercalate (values.map literal) = line ∧
      ofLiterals? line.toList = some values ∧
      (∀ others : List SqlValue, (∀ v ∈ others, v.isFloat = false) →
        line = ", ".intercalate (others.map literal) → values = others) ∧
      (Reader.quoted '\'' '\'').read "'a'', NULL, ''b', X".toList =
        some ("a', NULL, 'b".toList, ", X".toList) := by
  intro values line
  obtain ⟨hread, hinj, htext⟩ := literals_read_back
  have hvalues : ∀ v ∈ values, v.isFloat = false := by decide
  have hline : ", ".intercalate (values.map literal) = line := by cbv
  have hrest : Apart ['\''] ", X".toList := (Text.apart_cons _ ',' [' ', 'X']).2 (by decide)
  refine ⟨hvalues, hline, ?_, fun others hothers heq => ?_, ?_⟩
  · rw [← hline]
    exact hread values hvalues
  · exact (hinj values others hvalues hothers).1 (hline.trans heq)
  · exact htext "a', NULL, 'b" ", X".toList hrest

end SqlValue

end BulkWrite
