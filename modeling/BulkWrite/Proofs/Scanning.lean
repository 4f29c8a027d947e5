import BulkWrite.Proofs.Cells
import BulkWrite.Proofs.Names

/-!
Statements as a driver scans them, from left to right and without knowing how they were made. A quoted
name shows nothing of its content, so the marks outside of quotes are the slots (`scan_compile`).
-/
namespace BulkWrite

namespace Text

def closing? : Char → Option Char
  | '\'' => some '\''
  | '"' => some '"'
  | '\x60' => some '\x60'
  | '[' => some ']'
  | _ => none

theorem closing?_eq_none {c : Char} (h : c ∉ ['\'', '"', '\x60', '[']) : closing? c = none := by
  unfold closing?
  split <;> simp_all

/-- Counts question marks outside of quoted regions. The state is the count so far and the character
that closes the region in which the scan is; within a region, a doubled closing character stands for
a single one. -/
def scan : Nat → Option Char → List Char → Nat × Option Char
  | marks, region, [] => (marks, region)
  | marks, none, c :: rest =>
    match closing? c with
    | some closing => scan marks (some closing) rest
    | none => scan (if c = '?' then marks + 1 else marks) none rest
  | marks, some closing, [c] => (marks, if c = closing then none else some closing)
  | marks, some closing, c :: d :: rest =>
    if c ≠ closing then scan marks (some closing) (d :: rest)
    else if d = closing then scan marks (some closing) rest
    else scan marks none (d :: rest)

@[simp] theorem scan_nil (marks : Nat) (region : Option Char) :
    scan marks region [] = (marks, region) := by
  simp [scan]

theorem scan_plain {c : Char} (h : closing? c = none) (marks : Nat) (rest : List Char) :
    scan marks none (c :: rest) = scan (if c = '?' then marks + 1 else marks) none rest := by
  rw [scan, h]

theorem scan_opening {c closing : Char} (h : closing? c = some closing) (marks : Nat)
    (rest : List Char) : scan marks none (c :: rest) = scan marks (some closing) rest := by
  rw [scan, h]

theorem scan_inside {c closing : Char} (h : c ≠ closing) (marks : Nat) (rest : List Char) :
    scan marks (some closing) (c :: rest) = scan marks (some closing) rest := by
  cases rest with
  | nil => simp [scan, h]
  | cons d rest => simp [scan, h]

theorem scan_doubled (closing : Char) (marks : Nat) (rest : List Char) :
    scan marks (some closing) (closing :: closing :: rest) = scan marks (some closing) rest := by
  simp [scan]

theorem scan_closing {closing : Char} {rest : List Char} (h : Apart [closing] rest) (marks : Nat) :
    scan marks (some closing) (closing :: rest) = scan marks none rest := by
  cases rest with
  | nil => simp [scan]
  | cons d rest =>
    have hd : d ≠ closing := by simpa using h
    simp [scan, hd]

theorem scan_escape {closing : Char} {rest : List Char} (h : Apart [closing] rest) (marks : Nat)
    (body : List Char) :
    scan marks (some closing) (escape closing body ++ closing :: rest) = scan marks none rest := by
  induction body with
  | nil => exact scan_closing h marks
  | cons c body ih =>
    by_cases hc : c = closing
    · subst hc
      rw [escape_cons_self, List.cons_append, List.cons_append, scan_doubled, ih]
    · rw [escape_cons_of_ne hc, List.cons_append, scan_inside hc, ih]

/-- A scan that comes upon `text` outside of quotes meets `n` marks in it, and is outside again when
it leaves `text`, provided that none of `stops` comes next. -/
def Scans (stops : List Char) (n : Nat) (text : String) : Prop :=
  ∀ marks rest, Apart stops rest →
    scan marks none (text.toList ++ rest) = scan (marks + n) none rest

namespace Scans

variable {stops stops' : List Char} {n m : Nat} {s s' : String}

theorem empty : Scans stops 0 "" :=
  fun _ _ _ => rfl

theorem mono (h : Scans stops n s) (hsub : stops ⊆ stops') : Scans stops' n s :=
  fun marks rest hrest => h marks rest (hrest.mono hsub)

theorem append (h : Scans stops n s) (h' : Scans stops' m s')
    (hapart : ∀ rest, Apart stops (s'.toList ++ rest)) : Scans stops' (n + m) (s ++ s') := by
  intro marks rest hrest
  rw [String.toList_append, List.append_assoc, h marks _ (hapart rest), h' _ rest hrest, Nat.add_assoc]

theorem of_plain (h : s.toList.all (fun c => (closing? c).isNone) = true) :
    Scans [] (s.toList.count '?') s := by
  intro marks rest _
  generalize s.toList = cs at h
  induction cs generalizing marks with
  | nil => simp
  | cons c cs ih =>
    rw [List.all_cons, Bool.and_eq_true, Option.isNone_iff_eq_none] at h
    rw [List.cons_append, scan_plain h.1, ih _ h.2, List.count_cons]
    by_cases hc : c = '?'
    · simp [hc, Nat.add_comm, Nat.add_left_comm]
    · simp [hc]

/-- The separator is text without quotes and marks, and shields each item from the next one. -/
theorem intercalate {α β : Type} {print : α → String} {values : α → List β} {separator : String}
    {xs : List α} (h : ∀ x ∈ xs, Scans stops (values x).length (print x))
    (hsep : Scans [] 0 separator) (hapart : ∀ rest, Apart stops (separator.toList ++ rest)) :
    Scans stops (xs.flatMap values).length (separator.intercalate (xs.map print)) := by
  induction xs with
  | nil => exact empty
  | cons x xs ih =>
    rw [List.forall_mem_cons] at h
    cases xs with
    | nil => simpa using h.1
    | cons y xs =>
      rw [List.flatMap_cons, List.length_append, List.map_cons, List.map_cons,
        String.intercalate_cons_cons]
      exact (h.1.append hsep hapart).append (ih h.2) (by simp)

theorem intercalate_unmarked {α : Type} {print : α → String} {separator : String} {xs : List α}
    (h : ∀ x ∈ xs, Scans stops 0 (print x)) (hsep : Scans [] 0 separator)
    (hapart : ∀ rest, Apart stops (separator.toList ++ rest)) :
    Scans stops 0 (separator.intercalate (xs.map print)) := by
  have hnone : ∀ x ∈ xs, Scans stops ((fun _ => [] : α → List Unit) x).length (print x) := h
  simpa using intercalate hnone hsep hapart

theorem quoted {opening closing : Char} (h : closing? opening = some closing) (body : List Char) :
    Scans [closing] 0 (.ofList (Text.quoted opening closing body)) := by
  intro marks rest hrest
  rw [String.toList_ofList, Text.quoted, List.append_assoc, List.cons_append, scan_opening h]
  exact scan_escape hrest marks body

end Scans

theorem scans_comma : Scans [] 0 ", " := Scans.of_plain (by decide)

theorem scans_equals : Scans [] 0 " = " := Scans.of_plain (by decide)

theorem Scans.parenthesized {n : Nat} {s : String} {stops : List Char} (h : Scans stops n s)
    (hclosing : ')' ∉ stops) : Scans [] n ("(" ++ s ++ ")") := by
  have hopen : Scans [] 0 "(" := of_plain (by decide)
  have hclose : Scans [] 0 ")" := of_plain (by decide)
  simpa using (hopen.append h (by simp)).append hclose (by simp [hclosing])

end Text

open Text (Scans closing?)

/-- An expression has no quote and no question mark in it. -/
def Value.Plain : Value → Prop
  | bound _ => True
  | raw sql => ∀ c ∈ sql.toList, c ∉ ['?', '\'', '"', '\x60', '[']

instance (v : Value) : Decidable v.Plain :=
  match v with
  | .bound _ => .isTrue trivial
  | .raw sql => List.decidableBAll (fun c => c ∉ ['?', '\'', '"', '\x60', '[']) sql.toList

theorem Value.scans_shown {v : Value} (h : v.Plain) : Scans [] (boundValues [v]).length v.shown := by
  cases v with
  | bound x => exact Scans.of_plain (s := "?") (by decide)
  | raw sql =>
    have hquotes : sql.toList.all (fun c => (closing? c).isNone) = true := by
      refine List.all_eq_true.mpr fun c hc => Option.isNone_iff_eq_none.mpr ?_
      exact Text.closing?_eq_none fun hmem => h c hc (List.mem_cons_of_mem _ hmem)
    have hmarks : sql.toList.count '?' = 0 :=
      List.count_eq_zero.mpr fun hmem => h '?' hmem List.mem_cons_self
    have h := Scans.of_plain hquotes
    rwa [hmarks] at h

/-- The dots of a name stand outside of its quotes. -/
theorem Quotes.scans_encode {q : Quotes} (hopening : closing? q.opening = some q.closing)
    (hdot : '.' ≠ q.closing) (name : List Char) : Scans [q.closing] 0 (.ofList (q.encode name)) := by
  have htext : String.ofList (q.encode name) =
      ".".intercalate ((name.splitOn '.').map fun segment => .ofList (q.wrap segment)) := by
    apply String.toList_inj.mp
    rw [String.toList_intercalate, List.map_map]
    simp [encode, Function.comp_def]
  have hsep : Scans [] 0 "." := Scans.of_plain (by decide)
  have h := Scans.intercalate_unmarked (fun segment (_ : segment ∈ name.splitOn '.') =>
    Scans.quoted hopening segment) hsep (by simp [hdot])
  rw [htext]
  simpa [wrap] using h

namespace Dialect

variable (d : Dialect)

theorem scans_quote (name : String) : Scans d.nameStops 0 (d.quote name) := by
  have hopening : closing? d.quotes.opening = some d.quotes.closing := by cases d <;> rfl
  exact (Quotes.scans_encode hopening d.dot_ne_closing name.toList).mono (by simp [nameStops])

theorem scans_columnList (columns : List String) : Scans d.nameStops 0 (d.columnList columns) := by
  unfold columnList
  exact Scans.intercalate_unmarked (fun column _ => d.scans_quote column) Text.scans_comma (by simp)

theorem scans_valueGroup {row : Row} (h : ∀ v ∈ row.values, v.Plain) :
    Scans [] (boundValues row.values).length (d.valueGroup row).text := by
  have hvalues := Scans.intercalate (fun v hv => Value.scans_shown (h v hv)) Text.scans_comma (by simp)
  have hgroup := hvalues.parenthesized (by simp)
  rw [← boundValues_eq_flatMap] at hgroup
  simpa [valueGroup, Function.comp_def] using hgroup

theorem scans_valueGroups {rows : List Row} (h : ∀ row ∈ rows, ∀ v ∈ row.values, v.Plain) :
    Scans [] (bindings rows []).length (d.valueGroups rows).text := by
  have hrows := Scans.intercalate (fun row hrow => d.scans_valueGroup (h row hrow)) Text.scans_comma (by simp)
  rw [← boundValues_flatMap] at hrows
  simpa [valueGroups, bindings, Function.comp_def] using hrows

theorem scans_insertedValue (column : String) : Scans d.nameStops 0 (d.insertedValue column) := by
  unfold insertedValue
  cases d.conflictStyle with
  | onConflict =>
    rw [← quote_qualified]
    exact d.scans_quote _
  | onDuplicateKey =>
    have hvalues : Scans [] 0 "VALUES(" := Scans.of_plain (by decide)
    have hclose : Scans [] 0 ")" := Scans.of_plain (by decide)
    have h := (hvalues.append (d.scans_quote column) (by simp)).append hclose (by simp)
    exact h.mono (List.nil_subset _)
  | merge => exact d.scans_quote _

theorem scans_assignment {entry : UpdateEntry} (h : ∀ v ∈ entry.value?, v.Plain) :
    Scans d.nameStops (boundValues entry.value?.toList).length (d.assignment entry).text := by
  cases entry with
  | inserted column =>
    exact ((d.scans_quote column).append Text.scans_equals (by simp)).append (d.scans_insertedValue column)
      (by simp)
  | assign column value =>
    have hvalue := (Value.scans_shown (h value rfl)).mono (List.nil_subset d.nameStops)
    simpa [assignment, UpdateEntry.value?] using
      ((d.scans_quote column).append Text.scans_equals (by simp)).append hvalue (by simp)

theorem scans_assignments {spec : UpdateSpec} (h : ∀ v ∈ spec.assignedValues, v.Plain) :
    Scans d.nameStops (boundValues spec.assignedValues).length (d.assignments spec).text := by
  have hentry : ∀ entry ∈ spec, ∀ v ∈ entry.value?, v.Plain := fun entry hentry v hv =>
    h v (List.mem_filterMap.mpr ⟨entry, hentry, hv⟩)
  have hentries := Scans.intercalate (fun entry he => d.scans_assignment (hentry entry he)) Text.scans_comma
    (by simp)
  rw [← boundValues_flatMap, ← List.filterMap_eq_flatMap_toList] at hentries
  simpa [assignments, UpdateSpec.assignedValues, Function.comp_def] using hentries

end Dialect

theorem Merge.scans_condition (table : String) (target : ConflictTarget) :
    Scans dialect.nameStops 0 (condition table target) := by
  have hand : Scans [] 0 " AND " := Scans.of_plain (by decide)
  have hequation : ∀ column ∈ target, Scans dialect.nameStops 0 (equation table column) := by
    intro column _
    exact ((dialect.scans_quote _).append Text.scans_equals (by simp)).append
      (dialect.scans_quote _) (by simp)
  exact Scans.intercalate_unmarked hequation hand (by simp)

namespace Dialect

variable (d : Dialect)

theorem scans_insertLayout {verb columns groups clause : String} {n m : Nat} (table : String)
    (hverb : Scans [] 0 verb) (hcolumns : Scans d.nameStops 0 columns) (hgroups : Scans [] n groups)
    (hclause : Scans d.nameStops m clause) :
    Scans d.nameStops (n + m) (d.insertLayout verb table columns groups clause) := by
  have hinto : Scans [] 0 " INTO " := Scans.of_plain (by decide)
  have hopen : Scans [] 0 " (" := Scans.of_plain (by decide)
  have hvalues : Scans [] 0 ") VALUES " := Scans.of_plain (by decide)
  have htable := (hverb.append hinto (by simp)).append (d.scans_quote table) (by simp)
  have hheader := ((htable.append hopen (by simp)).append hcolumns (by simp)).append hvalues (by simp)
  have hstatement := (hheader.append hgroups (by simp)).append hclause (by simp)
  rw [Nat.zero_add] at hstatement
  exact hstatement

theorem scans_mergeLayout {columns groups condition matched : String} {n m : Nat} (table : String)
    (hcolumns : Scans d.nameStops 0 columns) (hgroups : Scans [] n groups)
    (hcondition : Scans d.nameStops 0 condition) (hmatched : Scans [] m matched) :
    Scans d.nameStops (n + m) (d.mergeLayout table columns groups condition matched) := by
  have hmerge : Scans [] 0 "MERGE " := Scans.of_plain (by decide)
  have husing : Scans [] 0 " USING (VALUES " := Scans.of_plain (by decide)
  have hclose : Scans [] 0 ") " := Scans.of_plain (by decide)
  have hopen : Scans [] 0 " (" := Scans.of_plain (by decide)
  have hon : Scans [] 0 ") ON " := Scans.of_plain (by decide)
  have hblank : Scans [] 0 " " := Scans.of_plain (by decide)
  have hnot : Scans [] 0 "WHEN NOT MATCHED THEN INSERT (" := Scans.of_plain (by decide)
  have hvalues : Scans [] 0 ") VALUES (" := Scans.of_plain (by decide)
  have hend : Scans [] 0 ");" := Scans.of_plain (by decide)
  have htable := (hmerge.append (d.scans_quote table) (by simp)).append husing (by simp)
  have hrows := ((htable.append hgroups (by simp)).append hclose (by simp)).append
    (d.scans_quote sourceAlias) (by simp)
  have hsource := ((hrows.append hopen (by simp)).append hcolumns (by simp)).append hon (by simp)
  have hjoin := (hsource.append hcondition (by simp)).append hblank (by simp)
  have hbranch := (hjoin.append hmatched (by simp)).append hnot (by simp)
  have hinsert := (hbranch.append hcolumns (by simp)).append hvalues (by simp)
  have hstatement := (hinsert.append hcolumns (by simp)).append hend (by simp)
  rw [Nat.zero_add] at hstatement
  exact hstatement.mono (List.nil_subset _)

end Dialect

namespace Handling

variable (d : Dialect) {handling : Handling}

theorem scans_onConflictClause (h : ∀ v ∈ handling.assignments.assignedValues, v.Plain) :
    Scans d.nameStops (boundValues handling.assignments.assignedValues).length
      (handling.onConflictClause d) := by
  cases handling with
  | fail => exact Scans.empty
  | update target spec =>
    have hon : Scans [] 0 " ON CONFLICT (" := Scans.of_plain (by decide)
    have hset : Scans [] 0 ") DO UPDATE SET " := Scans.of_plain (by decide)
    have htarget := (hon.append (d.scans_columnList target) (by simp)).append hset (by simp)
    have hclause := htarget.append (d.scans_assignments h) (by simp)
    rw [Nat.zero_add] at hclause
    exact hclause
  | skip target =>
    have hnothing : Scans [] 0 " ON CONFLICT DO NOTHING" := Scans.of_plain (by decide)
    exact hnothing.mono (List.nil_subset _)

theorem scans_onDuplicateKeyClause (h : ∀ v ∈ handling.assignments.assignedValues, v.Plain) :
    Scans d.nameStops (boundValues handling.assignments.assignedValues).length
      (handling.onDuplicateKeyClause d) := by
  cases handling with
  | fail => exact Scans.empty
  | update target spec =>
    have hon : Scans [] 0 " ON DUPLICATE KEY UPDATE " := Scans.of_plain (by decide)
    have hclause := hon.append (d.scans_assignments h) (by simp)
    rw [Nat.zero_add] at hclause
    exact hclause
  | skip target => exact Scans.empty

theorem scans_onDuplicateKeyVerb : Scans [] 0 handling.onDuplicateKeyVerb := by
  have hinsert : Scans [] 0 "INSERT" := Scans.of_plain (by decide)
  cases handling with
  | fail => exact hinsert
  | update target spec => exact hinsert
  | skip target => exact (Scans.of_plain (by decide) : Scans [] 0 "INSERT IGNORE")

theorem scans_whenMatched (h : ∀ v ∈ handling.assignments.assignedValues, v.Plain) :
    Scans [] (boundValues handling.assignments.assignedValues).length (handling.whenMatched d) := by
  cases handling with
  | fail => exact Scans.empty
  | update target spec =>
    have hwhen : Scans [] 0 "WHEN MATCHED THEN UPDATE SET " := Scans.of_plain (by decide)
    have hblank : Scans [] 0 " " := Scans.of_plain (by decide)
    have hset := (hwhen.append (d.scans_assignments h) (by simp)).append hblank (by simp)
    rw [Nat.zero_add] at hset
    exact hset
  | skip target => exact Scans.empty

theorem scans_layout {columns groups : String} {n : Nat} (table : String)
    (hcolumns : Scans d.nameStops 0 columns) (hgroups : Scans [] n groups)
    (h : ∀ v ∈ handling.assignments.assignedValues, v.Plain) :
    Scans d.nameStops (n + (boundValues handling.assignments.assignedValues).length)
      (handling.layout d table columns groups) := by
  have hinsert : Scans [] 0 "INSERT" := Scans.of_plain (by decide)
  cases hstyle : d.conflictStyle with
  | onConflict =>
    simp only [layout, hstyle]
    exact d.scans_insertLayout table hinsert hcolumns hgroups (scans_onConflictClause d h)
  | onDuplicateKey =>
    simp only [layout, hstyle]
    exact d.scans_insertLayout table scans_onDuplicateKeyVerb hcolumns hgroups
      (scans_onDuplicateKeyClause d h)
  | merge =>
    obtain rfl := Dialect.eq_merge_dialect hstyle
    have hmatched := scans_whenMatched Merge.dialect h
    cases handling with
    | fail => exact Merge.dialect.scans_insertLayout table hinsert hcolumns hgroups Scans.empty
    | update target spec =>
      exact Merge.dialect.scans_mergeLayout table hcolumns hgroups
        (Merge.scans_condition table target) hmatched
    | skip target =>
      exact Merge.dialect.scans_mergeLayout table hcolumns hgroups
        (Merge.scans_condition table target) hmatched

end Handling

/-- Whatever the names are, a statement without quotes or question marks in its expressions shows one
question mark outside of quotes for each of its values, and every region that it opens is closed. -/
theorem Table.scan_compile {t : Table} {w : Write} {s : Statement} (h : t.compile w = .ok (some s))
    (hplain : ∀ v ∈ w.values, v.Plain) :
    Text.scan 0 none s.sql.toList = (s.bindings.length, none) := by
  obtain ⟨-, hrows, rfl⟩ := (t.compile_eq_statement_iff w s).mp h
  have hgroups := t.dialect.scans_valueGroups fun r hr v hv =>
    hplain v (Write.mem_values_of_mem_sorted hr hv)
  have hheader := t.dialect.scans_columnList (Row.header (w.rows.map Row.sorted))
  have hlayout := Handling.scans_layout t.dialect t.name hheader hgroups fun v hv =>
    hplain v (Write.mem_values_of_mem_assigned hv)
  have hscan := hlayout 0 [] (by simp)
  rw [← t.sql_assemble hrows, List.append_nil, Text.scan_nil, Nat.zero_add, ← List.length_append,
    ← bindings_eq] at hscan
  exact hscan

/-- The names contain quotes of all kinds and question marks. -/
theorem Table.scan_compile_hostile_names :
    let w := Write.upsert [.ofList [("b']", .bound .null), ("a?\x60", .raw "now()")]] ["\x60\x60"]
      (some [.assign "b']" (.bound (.bool true)), .inserted "a?\x60"])
    let s : Statement := {
      sql := "INSERT INTO \x60[\"?\x60.\x60t\x60 (\x60a?\x60\x60\x60, \x60b']\x60) " ++
        "VALUES (now(), ?) ON DUPLICATE KEY UPDATE \x60b']\x60 = ?, " ++
        "\x60a?\x60\x60\x60 = VALUES(\x60a?\x60\x60\x60)"
      bindings := [.null, .bool true] }
    Table.compile ⟨.mySql, "[\"?.t"⟩ w = .ok (some s) ∧ (∀ v ∈ w.values, v.Plain) ∧
      Text.scan 0 none s.sql.toList = (2, none) := by
  intro w s
  have h : Table.compile ⟨.mySql, "[\"?.t"⟩ w = .ok (some s) := by
    simp only [s, String.reduceAppend]
    cbv
  have hplain : ∀ v ∈ w.values, v.Plain := by decide
  exact ⟨h, hplain, scan_compile h hplain⟩

end BulkWrite
