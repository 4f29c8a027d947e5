import BulkWrite.Proofs.Layout
import BulkWrite.Proofs.Reading

/-!
Reading statements. Without raw expressions a text holds nothing but keywords, quoted names and
marks, and each of its clauses is readable, so the text gives the names, the number of rows, the size
of each row and the kinds of the assignments. Main statement: `Handling.layout_inj`.
-/
namespace BulkWrite

open Text (Apart Readable)

def markGroup (n : Nat) : String := "(" ++ ", ".intercalate (List.replicate n "?") ++ ")"

def markGroups (sizes : List Nat) : String := ", ".intercalate (sizes.map markGroup)

theorem readable_mark : Readable (fun _ : Unit => ['?']) [] := by
  intro x y r s _ _ heq
  exact ⟨rfl, by simpa using heq⟩

theorem toList_markGroup (n : Nat) :
    (markGroup n).toList =
      '(' :: [',', ' '].intercalate ((List.replicate n ()).map fun _ => ['?']) ++ [')'] := by
  simp [markGroup]

theorem readable_markGroup : Readable (fun n => (markGroup n).toList) [] := by
  intro n m r s _ _ heq
  simp only [toList_markGroup, List.cons_append, List.append_assoc, List.nil_append,
    List.cons.injEq, true_and] at heq
  -- The parenthesis tells where the marks end.
  have hempty : ∀ (k : Nat) (r s : List Char), ')' :: r ≠
      [',', ' '].intercalate ((List.replicate (k + 1) ()).map fun _ => ['?']) ++ ')' :: s := by
    intro k r s
    cases k <;> simp [List.replicate_succ]
  cases n with
  | zero =>
    cases m with
    | zero => simpa using heq
    | succ m => exact absurd heq (hempty m r s)
  | succ n =>
    cases m with
    | zero => exact absurd heq.symm (hempty n s r)
    | succ m =>
      obtain ⟨hmarks, hrest⟩ := readable_mark.intercalate (by simp [Apart]) (by simp) (by simp)
        (by simp) (by simp) (by simp) (by simp) heq
      have hlen := congrArg List.length hmarks
      exact ⟨by simpa using hlen, by simpa using hrest⟩

theorem markGroups_append_inj {sizes sizes' : List Nat} {r s : List Char} (hne : sizes ≠ [])
    (hne' : sizes' ≠ []) (hr : Apart [','] r) (hs : Apart [','] s)
    (heq : (markGroups sizes).toList ++ r = (markGroups sizes').toList ++ s) :
    sizes = sizes' ∧ r = s := by
  have hcomma : ", ".toList = [',', ' '] := rfl
  simp only [markGroups, String.toList_intercalate, List.map_map, hcomma] at heq
  exact readable_markGroup.intercalate (by simp [Apart]) hne hne' (by simp [Apart])
    (by simp [Apart]) (hr.not_isPrefix (by simp)) (hs.not_isPrefix (by simp)) heq

/-- The column of an assignment, and whether it has a value of its own. -/
def UpdateEntry.outline : UpdateEntry → String × Bool
  | inserted column => (column, false)
  | assign column _ => (column, true)

namespace Dialect

variable (d : Dialect)

def outlineText (outline : String × Bool) : String :=
  d.quote outline.1 ++ " = " ++ if outline.2 then "?" else d.insertedValue outline.1

theorem head?_insertedValue (column : String) :
    ∃ c, c ≠ '?' ∧ (d.insertedValue column).toList.head? = some c := by
  have hopening : d.quotes.opening ≠ '?' := by cases d <;> decide
  unfold insertedValue
  cases d.conflictStyle with
  | onConflict =>
    exact ⟨_, hopening, by simp [List.head?_append, -toList_quote, head?_quote]⟩
  | onDuplicateKey => exact ⟨'V', by decide, by simp⟩
  | merge => exact ⟨_, hopening, d.head?_quote _⟩

theorem insertedValue_append_ne (column : String) (r s : List Char) :
    (d.insertedValue column).toList ++ r ≠ "?".toList ++ s := by
  intro heq
  obtain ⟨c, hc, hhead⟩ := d.head?_insertedValue column
  have h := congrArg List.head? heq
  rw [List.head?_append, hhead] at h
  exact hc (by simpa using h)

theorem readable_outlineText : Readable (fun o => (d.outlineText o).toList) d.nameStops := by
  rintro ⟨column, assigned⟩ ⟨column', assigned'⟩ r s hr hs heq
  simp only [outlineText, String.toList_append, List.append_assoc] at heq
  obtain ⟨rfl, hvalue⟩ := d.readable_quote (by simp) (by simp) heq
  have hvalue := List.append_cancel_left hvalue
  cases assigned with
  | false =>
    cases assigned' with
    | false => exact ⟨rfl, List.append_cancel_left hvalue⟩
    | true => exact absurd hvalue (d.insertedValue_append_ne column r s)
  | true =>
    cases assigned' with
    | false => exact absurd hvalue.symm (d.insertedValue_append_ne column s r)
    | true => exact ⟨rfl, List.append_cancel_left hvalue⟩

theorem text_assignment {entry : UpdateEntry} (h : ∀ v ∈ entry.value?, v.isRaw = false) :
    (d.assignment entry).text = d.outlineText entry.outline := by
  match entry with
  | .inserted column => simp [assignment, outlineText, UpdateEntry.outline]
  | .assign column (.bound v) =>
    simp [assignment, outlineText, UpdateEntry.outline, parameter, placeholder]
  | .assign column (.raw sql) => simp [UpdateEntry.value?, Value.isRaw] at h

theorem text_assignments {spec : UpdateSpec} (h : ∀ v ∈ spec.assignedValues, v.isRaw = false) :
    (d.assignments spec).text = ", ".intercalate ((spec.map UpdateEntry.outline).map d.outlineText) := by
  simp only [assignments, Fragment.text_join, List.map_map]
  refine congrArg _ (List.map_congr_left fun entry hentry => d.text_assignment fun v hv => ?_)
  exact h v (List.mem_filterMap.mpr ⟨entry, hentry, hv⟩)

theorem assignments_inj {spec spec' : UpdateSpec} (hne : spec ≠ []) (hne' : spec' ≠ [])
    (hbound : ∀ v ∈ spec.assignedValues, v.isRaw = false)
    (hbound' : ∀ v ∈ spec'.assignedValues, v.isRaw = false)
    (heq : (d.assignments spec).text = (d.assignments spec').text) :
    spec.map UpdateEntry.outline = spec'.map UpdateEntry.outline := by
  have htext : ∀ outlines : List (String × Bool),
      (", ".intercalate (outlines.map d.outlineText)).toList =
        [',', ' '].intercalate (outlines.map fun o => (d.outlineText o).toList) := by
    intro outlines
    rw [String.toList_intercalate, List.map_map]
    rfl
  rw [d.text_assignments hbound, d.text_assignments hbound', ← String.toList_inj, htext, htext] at heq
  have hends := congrArg (· ++ ([] : List Char)) heq
  have hread := d.readable_outlineText.intercalate (by simp) (by simpa using hne)
    (by simpa using hne') (by simp) (by simp) (by simp) (by simp) hends
  exact hread.1

end Dialect

/-- A condition names each column of the target behind the name of the source. -/
theorem Merge.readable_equation (table : String) :
    Readable (fun column => (equation table column).toList) dialect.nameStops := by
  intro column column' r s hr hs heq
  simp only [equation, String.toList_append, List.append_assoc] at heq
  obtain ⟨hname, hrest⟩ := dialect.readable_quote (by simp) (by simp) heq
  have hcolumn : column = column' := by
    have h := congrArg String.toList hname
    simp only [String.toList_append, List.append_assoc] at h
    exact String.toList_inj.mp (List.append_cancel_left (List.append_cancel_left h))
  subst hcolumn
  exact ⟨rfl, List.append_cancel_left (List.append_cancel_left hrest)⟩

theorem Merge.condition_append_inj {table : String} {target target' : ConflictTarget}
    {r s : List Char} (hne : target ≠ []) (hne' : target' ≠ [])
    (heq : (condition table target).toList ++ ' ' :: 'W' :: r =
      (condition table target').toList ++ ' ' :: 'W' :: s) : target = target' ∧ r = s := by
  have hand : " AND ".toList = [' ', 'A', 'N', 'D', ' '] := rfl
  simp only [condition, String.toList_intercalate, List.map_map, hand] at heq
  have hread := (readable_equation table).intercalate (by simp) hne hne' (by simp) (by simp)
    (by simp) (by simp) heq
  simpa using hread

namespace Dialect

variable (d : Dialect)

theorem insertLayout_inj {verb table table' clause clause' : String} {columns columns' : List String}
    {sizes sizes' : List Nat} (hcolumns : columns ≠ []) (hcolumns' : columns' ≠ [])
    (hsizes : sizes ≠ []) (hsizes' : sizes' ≠ []) (hclause : Apart [','] clause.toList)
    (hclause' : Apart [','] clause'.toList)
    (heq : d.insertLayout verb table (d.columnList columns) (markGroups sizes) clause =
      d.insertLayout verb table' (d.columnList columns') (markGroups sizes') clause') :
    table = table' ∧ columns = columns' ∧ sizes = sizes' ∧ clause = clause' := by
  have h₀ := congrArg String.toList heq
  simp only [insertLayout, String.toList_append, List.append_assoc] at h₀
  -- What stands between the verb and the clause is read from left to right.
  have h₁ := List.append_cancel_left (List.append_cancel_left h₀)
  obtain ⟨htable, h₂⟩ := d.readable_quote (by simp) (by simp) h₁
  obtain ⟨hcols, h₃⟩ := d.columnList_append_inj hcolumns hcolumns' (by simp) (by simp)
    (List.append_cancel_left h₂)
  obtain ⟨hmarks, h₄⟩ := markGroups_append_inj hsizes hsizes' hclause hclause'
    (List.append_cancel_left h₃)
  exact ⟨htable, hcols, hmarks, String.toList_inj.mp h₄⟩

/-- `INSERT` and `INSERT IGNORE` differ in what comes after the first word. -/
theorem verb_eq_of_insertLayout {handling handling' : Handling}
    {table table' columns columns' groups groups' clause clause' : String}
    (heq : d.insertLayout handling.onDuplicateKeyVerb table columns groups clause =
      d.insertLayout handling'.onDuplicateKeyVerb table' columns' groups' clause') :
    handling.onDuplicateKeyVerb = handling'.onDuplicateKeyVerb := by
  have hverb : ∀ k : Handling, k.onDuplicateKeyVerb = "INSERT" ∨
      k.onDuplicateKeyVerb = "INSERT IGNORE" := by
    intro k
    cases k <;> simp [Handling.onDuplicateKeyVerb]
  have hlist := congrArg String.toList heq
  simp only [insertLayout, String.toList_append, List.append_assoc] at hlist
  rcases hverb handling with h | h <;> rcases hverb handling' with h' | h' <;> rw [h, h'] at hlist ⊢
  · simp at hlist
  · simp at hlist

theorem mergeLayout_ne_insertLayout
    {table table' columns columns' groups groups' condition matched clause : String} :
    Merge.dialect.mergeLayout table columns groups condition matched ≠
      d.insertLayout "INSERT" table' columns' groups' clause := by
  intro heq
  unfold mergeLayout at heq
  -- The alias stays folded, or its text would be evaluated.
  generalize Merge.dialect.quote sourceAlias = quoted at heq
  have hlist := congrArg String.toList heq
  simp only [insertLayout, String.toList_append, List.append_assoc] at hlist
  simp at hlist

end Dialect

/-- The condition of a `MERGE` is followed by a branch, for matched rows or for the others. -/
theorem Handling.whenMatched_append (d : Dialect) (handling : Handling) (r : List Char) :
    ∃ s, (handling.whenMatched d).toList ++ ("WHEN NOT MATCHED THEN INSERT (".toList ++ r) =
      'W' :: s := by
  cases handling with
  | fail => exact ⟨_, rfl⟩
  | update target spec =>
    rw [whenMatched_update]
    simp
  | skip target => exact ⟨_, rfl⟩

theorem Merge.mergeLayout_inj {table table' : String} {columns columns' : List String}
    {sizes sizes' : List Nat} {target target' : ConflictTarget} {handling handling' : Handling}
    (hcolumns : columns ≠ []) (hcolumns' : columns' ≠ []) (hsizes : sizes ≠ [])
    (hsizes' : sizes' ≠ []) (htarget : target ≠ []) (htarget' : target' ≠ [])
    (heq : dialect.mergeLayout table (dialect.columnList columns) (markGroups sizes)
        (condition table target) (handling.whenMatched dialect) =
      dialect.mergeLayout table' (dialect.columnList columns') (markGroups sizes')
        (condition table' target') (handling'.whenMatched dialect)) :
    table = table' ∧ columns = columns' ∧ sizes = sizes' ∧ target = target' ∧
      handling.whenMatched dialect = handling'.whenMatched dialect := by
  unfold Dialect.mergeLayout at heq
  generalize dialect.quote sourceAlias = quoted at heq
  have h₀ := congrArg String.toList heq
  simp only [String.toList_append, List.append_assoc] at h₀
  -- The value groups come before the columns, and the condition before what it decides.
  obtain ⟨htable, h₁⟩ := dialect.readable_quote (by simp) (by simp) (List.append_cancel_left h₀)
  subst htable
  obtain ⟨hmarks, h₂⟩ := markGroups_append_inj hsizes hsizes' (by simp) (by simp)
    (List.append_cancel_left h₁)
  have h₃ := List.append_cancel_left (List.append_cancel_left (List.append_cancel_left h₂))
  obtain ⟨hcols, h₄⟩ := dialect.columnList_append_inj hcolumns hcolumns' (by simp) (by simp) h₃
  subst hcols
  have h₅ := List.append_cancel_left h₄
  -- Both branches begin with `W`, so the condition ends at a blank that no `AND` follows.
  obtain ⟨r, hr⟩ := handling.whenMatched_append dialect _
  obtain ⟨r', hr'⟩ := handling'.whenMatched_append dialect _
  have hblank : " ".toList = [' '] := rfl
  rw [hr, hr', hblank, List.singleton_append, List.singleton_append] at h₅
  obtain ⟨htargets, rfl⟩ := condition_append_inj htarget htarget' h₅
  have hmatches := List.append_cancel_right (hr.trans hr'.symm)
  exact ⟨rfl, rfl, hmarks, htargets, String.toList_inj.mp hmatches⟩

inductive Operation where
  | insert
  | upsert
  | insertIgnore
  deriving DecidableEq

namespace Handling

def operation : Handling → Operation
  | fail => .insert
  | update _ _ => .upsert
  | skip _ => .insertIgnore

def writtenTarget (style : ConflictStyle) : Handling → ConflictTarget
  | fail => []
  | update target _ => if style = .onDuplicateKey then [] else target
  | skip target => if style = .merge then target else []

/-- Whatever the statement has to name is there, and no expression stands in its assignments. -/
structure Legible (style : ConflictStyle) (handling : Handling) : Prop where
  violation_eq_none : handling.violation? style = none
  spec_ne_nil : ∀ target spec, handling = .update target spec → spec ≠ []
  isRaw_eq_false : ∀ v ∈ handling.assignments.assignedValues, v.isRaw = false

/-- Two ways of handling existing rows that agree in all that a text shows of them. -/
structure Alike (style : ConflictStyle) (handling handling' : Handling) : Prop where
  operation_eq : handling.operation = handling'.operation
  writtenTarget_eq : handling.writtenTarget style = handling'.writtenTarget style
  outline_eq : handling.assignments.map UpdateEntry.outline =
    handling'.assignments.map UpdateEntry.outline

theorem target_ne_nil_of_update {style : ConflictStyle} {target : ConflictTarget}
    {spec : UpdateSpec} (h : (update target spec).violation? style = none) : target ≠ [] := by
  rintro rfl
  simp [violation?] at h

theorem target_ne_nil_of_skip {target : ConflictTarget}
    (h : (skip target).violation? .merge = none) : target ≠ [] := by
  rintro rfl
  simp [violation?] at h

variable {d : Dialect} {handling handling' : Handling}

theorem onConflictClause_inj (h : handling.Legible .onConflict) (h' : handling'.Legible .onConflict)
    (heq : handling.onConflictClause d = handling'.onConflictClause d) :
    Alike .onConflict handling handling' := by
  have hlist := congrArg String.toList heq
  match handling, handling' with
  | fail, fail => exact ⟨rfl, rfl, rfl⟩
  | skip target, skip target' => exact ⟨rfl, rfl, rfl⟩
  | update target spec, update target' spec' =>
    simp only [onConflictClause_update, String.toList_append, List.append_assoc] at hlist
    obtain ⟨htarget, hspec⟩ := d.columnList_append_inj
      (target_ne_nil_of_update h.violation_eq_none) (target_ne_nil_of_update h'.violation_eq_none)
      (by simp) (by simp) (List.append_cancel_left hlist)
    have houtline := d.assignments_inj (h.spec_ne_nil target spec rfl)
      (h'.spec_ne_nil target' spec' rfl) h.isRaw_eq_false h'.isRaw_eq_false
      (String.toList_inj.mp (List.append_cancel_left hspec))
    exact ⟨rfl, htarget, houtline⟩
  | fail, update _ _ | fail, skip _ | update _ _, fail | update _ _, skip _ | skip _, fail
  | skip _, update _ _ => simp at hlist

theorem onDuplicateKeyClause_inj (h : handling.Legible .onDuplicateKey)
    (h' : handling'.Legible .onDuplicateKey)
    (hverb : handling.onDuplicateKeyVerb = handling'.onDuplicateKeyVerb)
    (heq : handling.onDuplicateKeyClause d = handling'.onDuplicateKeyClause d) :
    Alike .onDuplicateKey handling handling' := by
  have hlist := congrArg String.toList heq
  match handling, handling' with
  | fail, fail => exact ⟨rfl, rfl, rfl⟩
  | skip target, skip target' => exact ⟨rfl, rfl, rfl⟩
  | update target spec, update target' spec' =>
    simp only [onDuplicateKeyClause_update, String.toList_append] at hlist
    have houtline := d.assignments_inj (h.spec_ne_nil target spec rfl)
      (h'.spec_ne_nil target' spec' rfl) h.isRaw_eq_false h'.isRaw_eq_false
      (String.toList_inj.mp (List.append_cancel_left hlist))
    exact ⟨rfl, rfl, houtline⟩
  | fail, update _ _ | update _ _, fail | update _ _, skip _ | skip _, update _ _ =>
    simp at hlist
  | fail, skip _ | skip _, fail => simp [onDuplicateKeyVerb] at hverb

theorem mergeTarget_ne_nil (h : handling.Legible .merge) (hne : handling ≠ fail) :
    handling.writtenTarget .merge ≠ [] := by
  cases handling with
  | fail => exact absurd rfl hne
  | update target spec => exact target_ne_nil_of_update h.violation_eq_none
  | skip target => exact target_ne_nil_of_skip h.violation_eq_none

theorem whenMatched_inj (h : handling.Legible .merge) (h' : handling'.Legible .merge)
    (hne : handling ≠ fail) (hne' : handling' ≠ fail)
    (htarget : handling.writtenTarget .merge = handling'.writtenTarget .merge)
    (heq : handling.whenMatched Merge.dialect = handling'.whenMatched Merge.dialect) :
    Alike .merge handling handling' := by
  have hlist := congrArg String.toList heq
  match handling, handling' with
  | fail, _ => exact absurd rfl hne
  | _, fail => exact absurd rfl hne'
  | skip target, skip target' => exact ⟨rfl, htarget, rfl⟩
  | update target spec, update target' spec' =>
    simp only [whenMatched_update, String.toList_append, List.append_assoc] at hlist
    have houtline := Merge.dialect.assignments_inj (h.spec_ne_nil target spec rfl)
      (h'.spec_ne_nil target' spec' rfl) h.isRaw_eq_false h'.isRaw_eq_false
      (String.toList_inj.mp (List.append_cancel_right (List.append_cancel_left hlist)))
    exact ⟨rfl, htarget, houtline⟩
  | update _ _, skip _ | skip _, update _ _ => simp at hlist

theorem apart_onConflictClause : Apart [','] (handling.onConflictClause d).toList := by
  cases handling <;> simp

theorem apart_onDuplicateKeyClause : Apart [','] (handling.onDuplicateKeyClause d).toList := by
  cases handling <;> simp

theorem layout_of_ne_fail (hstyle : d.conflictStyle = .merge) (hne : handling ≠ fail)
    (table columns groups : String) :
    handling.layout d table columns groups = Merge.dialect.mergeLayout table columns groups
      (Merge.condition table (handling.writtenTarget .merge)) (handling.whenMatched Merge.dialect) := by
  rw [Dialect.eq_merge_dialect hstyle]
  cases handling with
  | fail => exact absurd rfl hne
  | update target spec => rfl
  | skip target => rfl

/-- A text without expressions gives all that it was made from. -/
theorem layout_inj {table table' : String} {columns columns' : List String}
    {sizes sizes' : List Nat} (hcolumns : columns ≠ []) (hcolumns' : columns' ≠ [])
    (hsizes : sizes ≠ []) (hsizes' : sizes' ≠ []) (h : handling.Legible d.conflictStyle)
    (h' : handling'.Legible d.conflictStyle)
    (heq : handling.layout d table (d.columnList columns) (markGroups sizes) =
      handling'.layout d table' (d.columnList columns') (markGroups sizes')) :
    table = table' ∧ columns = columns' ∧ sizes = sizes' ∧
      Alike d.conflictStyle handling handling' := by
  cases hstyle : d.conflictStyle with
  | onConflict =>
    rw [hstyle] at h h'
    simp only [layout, hstyle] at heq
    obtain ⟨htable, hcols, hmarks, hclause⟩ := d.insertLayout_inj hcolumns hcolumns' hsizes hsizes'
      apart_onConflictClause apart_onConflictClause heq
    exact ⟨htable, hcols, hmarks, onConflictClause_inj h h' hclause⟩
  | onDuplicateKey =>
    rw [hstyle] at h h'
    simp only [layout, hstyle] at heq
    have hverb := d.verb_eq_of_insertLayout heq
    rw [hverb] at heq
    obtain ⟨htable, hcols, hmarks, hclause⟩ := d.insertLayout_inj hcolumns hcolumns' hsizes hsizes'
      apart_onDuplicateKeyClause apart_onDuplicateKeyClause heq
    exact ⟨htable, hcols, hmarks, onDuplicateKeyClause_inj h h' hverb hclause⟩
  | merge =>
    rw [hstyle] at h h'
    by_cases hne : handling = fail
    · by_cases hne' : handling' = fail
      · subst hne
        subst hne'
        rw [layout_fail, layout_fail] at heq
        obtain ⟨htable, hcols, hmarks, -⟩ := d.insertLayout_inj hcolumns hcolumns' hsizes hsizes'
          (by simp) (by simp) heq
        exact ⟨htable, hcols, hmarks, rfl, rfl, rfl⟩
      · subst hne
        rw [layout_fail, layout_of_ne_fail hstyle hne'] at heq
        exact absurd heq.symm d.mergeLayout_ne_insertLayout
    · rw [layout_of_ne_fail hstyle hne] at heq
      by_cases hne' : handling' = fail
      · subst hne'
        rw [layout_fail] at heq
        exact absurd heq d.mergeLayout_ne_insertLayout
      · rw [layout_of_ne_fail hstyle hne', Dialect.eq_merge_dialect hstyle] at heq
        obtain ⟨htable, hcols, hmarks, htarget, hmatched⟩ := Merge.mergeLayout_inj hcolumns hcolumns'
          hsizes hsizes' (mergeTarget_ne_nil h hne) (mergeTarget_ne_nil h' hne') heq
        exact ⟨htable, hcols, hmarks, whenMatched_inj h h' hne hne' htarget hmatched⟩

end Handling

end BulkWrite
