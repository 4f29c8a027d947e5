import Mathlib.Data.List.Forall2
import Mathlib.Data.List.Nodup
import BulkWrite.Session

/-!
Which names a dialect is known by: the listed ones, with any white space around them and with ASCII
letters in either case, and no others. Main statement: `parse_up_to_spelling`.
-/
namespace BulkWrite

/-- Both tables answer all requests alike, whether these are compiled or carried out, and over any
connection. -/
def Table.Alike (t t' : Table) : Prop :=
  (∀ w, t.compile w = t'.compile w) ∧
    ∀ (m : Type → Type) [Monad m] (connection : Connection m) (calls : List Call),
      t.answerAll connection calls = t'.answerAll connection calls

theorem Table.forDriver_of_parse {driver : String} {d : Dialect} (h : Dialect.parse driver = .ok d)
    (name : String) : Table.forDriver driver name = .ok ⟨d, name⟩ := by
  rw [Table.forDriver, h]
  rfl

namespace Text

/-- Each capital letter of ASCII beside its small one. -/
def letters : List (Char × Char) :=
  "ABCDEFGHIJKLMNOPQRSTUVWXYZ".toList.zip "abcdefghijklmnopqrstuvwxyz".toList

/-- The same character, or the same letter of ASCII in the other case. -/
def SameLetter (a b : Char) : Prop := a = b ∨ (a, b) ∈ letters ∨ (b, a) ∈ letters

def SameUpToCase (s t : String) : Prop := List.Forall₂ SameLetter s.toList t.toList

-- `List.all` keeps `decide` to the pairs of the list. A bounded quantifier over characters may be
-- decided by going through all characters.
theorem toLower_of_mem_letters {p : Char × Char} (h : p ∈ letters) :
    p.1.toLower = p.2 ∧ p.2.toLower = p.2 := by
  have hall : (letters.all fun p => decide (p.1.toLower = p.2 ∧ p.2.toLower = p.2)) = true := by
    decide
  exact of_decide_eq_true (List.all_eq_true.1 hall p h)

theorem isBlank_of_mem_letters {p : Char × Char} (h : p ∈ letters) :
    isBlank p.1 = false ∧ isBlank p.2 = false := by
  have hall : (letters.all fun p => decide (isBlank p.1 = false ∧ isBlank p.2 = false)) = true := by
    decide
  exact of_decide_eq_true (List.all_eq_true.1 hall p h)

theorem nodup_letters : (letters.map Prod.snd).Nodup := by
  decide

theorem capital_mem_letters :
    ∀ i < 26, (Char.ofNat (65 + i), (Char.ofNat (65 + i)).toLower) ∈ letters := by
  decide

theorem toLower_eq_or (c : Char) : c.toLower = c ∨ (c, c.toLower) ∈ letters := by
  by_cases h : c.val ≥ 'A'.val ∧ c.val ≤ 'Z'.val
  · have hlow : 65 ≤ c.toNat := UInt32.le_iff_toNat_le.1 h.1
    have hhigh : c.toNat ≤ 90 := UInt32.le_iff_toNat_le.1 h.2
    have hcapital := capital_mem_letters (c.toNat - 65) (by omega)
    rw [Nat.add_sub_cancel' hlow, Char.ofNat_toNat] at hcapital
    exact .inr hcapital
  · exact .inl (dif_neg h)

theorem sameLetter_iff (a b : Char) : SameLetter a b ↔ a.toLower = b.toLower := by
  constructor
  · rintro (rfl | h | h)
    · rfl
    · exact (toLower_of_mem_letters h).1.trans (toLower_of_mem_letters h).2.symm
    · exact (toLower_of_mem_letters h).2.trans (toLower_of_mem_letters h).1.symm
  · intro h
    rcases toLower_eq_or a with ha | ha <;> rcases toLower_eq_or b with hb | hb
    · exact .inl (ha.symm.trans (h.trans hb))
    · exact .inr (.inr (by rwa [← h, ha] at hb))
    · exact .inr (.inl (by rwa [h, hb] at ha))
    · exact .inl (congrArg Prod.fst (List.inj_on_of_nodup_map nodup_letters ha hb h))

theorem isBlank_toLower (c : Char) : isBlank c.toLower = isBlank c := by
  rcases toLower_eq_or c with h | h
  · rw [h]
  · exact (isBlank_of_mem_letters h).2.trans (isBlank_of_mem_letters h).1.symm

theorem forall₂_sameLetter_iff (cs ds : List Char) :
    List.Forall₂ SameLetter cs ds ↔ cs.map Char.toLower = ds.map Char.toLower := by
  have hletter : SameLetter = fun a b => a.toLower = b.toLower :=
    funext fun a => funext fun b => propext (sameLetter_iff a b)
  rw [hletter, ← List.forall₂_eq_eq_eq, List.forall₂_map_left_iff, List.forall₂_map_right_iff]

end Text

namespace Dialect

open Text (Blank SameUpToCase SameLetter)

/-- The name is `known` up to outer white space and the case of ASCII letters. -/
def Spells (name known : String) : Prop :=
  ∃ u core v, Blank u ∧ Blank v ∧ name.toList = u ++ core ++ v ∧
    List.Forall₂ SameLetter core known.toList

theorem toList_nameKey (name : String) :
    (nameKey name).toList = Text.trim (name.toList.map Char.toLower) := by
  rw [nameKey, String.toList_ofList, Text.trim_map Text.isBlank_toLower]

theorem nameKey_pad {u v s s' : String} (hu : Blank u.toList) (hv : Blank v.toList)
    (hcase : SameUpToCase s s') : nameKey (u ++ s' ++ v) = nameKey s := by
  apply String.toList_inj.1
  rw [toList_nameKey, toList_nameKey, (Text.forall₂_sameLetter_iff _ _).1 hcase,
    Text.trim_map Text.isBlank_toLower, Text.trim_map Text.isBlank_toLower, String.toList_append,
    String.toList_append, Text.trim_append hu hv]

theorem plain_of_mem_names {d : Dialect} {known : String} (h : known ∈ d.names) :
    ∀ c ∈ known.toList, Text.isBlank c = false ∧ c.toLower = c := by
  have hall : (d.names.all fun known =>
      known.toList.all fun c => decide (Text.isBlank c = false ∧ c.toLower = c)) = true := by
    cases d <;> decide
  intro c hc
  exact of_decide_eq_true (List.all_eq_true.1 (List.all_eq_true.1 hall known h) c hc)

theorem eq_of_mem_names {d d' : Dialect} {known : String} (h : known ∈ d.names)
    (h' : known ∈ d'.names) : d = d' := by
  have hall : ∀ d ∈ all, ∀ d' ∈ all, ∀ known ∈ d.names, known ∈ d'.names → d = d' := by decide
  exact hall d d.mem_all d' d'.mem_all known h h'

theorem nameKey_eq_iff {name known : String}
    (hknown : ∀ c ∈ known.toList, Text.isBlank c = false ∧ c.toLower = c) :
    nameKey name = known ↔ Spells name known := by
  have hlower : known.toList.map Char.toLower = known.toList := by
    conv_rhs => rw [← List.map_id known.toList]
    exact List.map_congr_left fun c hc => (hknown c hc).2
  constructor
  · rintro rfl
    obtain ⟨u, v, hu, hv, hname⟩ := Text.exists_eq_append_trim name.toList
    refine ⟨u, Text.trim name.toList, v, hu, hv, hname, (Text.forall₂_sameLetter_iff _ _).2 ?_⟩
    rw [hlower, nameKey, String.toList_ofList]
  · rintro ⟨u, core, v, hu, hv, hname, hcore⟩
    apply String.toList_inj.1
    rw [nameKey, String.toList_ofList, hname, Text.trim_append hu hv,
      ← Text.trim_map Text.isBlank_toLower, (Text.forall₂_sameLetter_iff _ _).1 hcore, hlower]
    exact Text.trim_eq_self fun c hc => (hknown c hc).1

theorem nameKey_mem_names_iff (name : String) (d : Dialect) :
    nameKey name ∈ d.names ↔ ∃ known ∈ d.names, Spells name known := by
  constructor
  · intro h
    exact ⟨nameKey name, h, (nameKey_eq_iff (plain_of_mem_names h)).1 rfl⟩
  · rintro ⟨known, hknown, hspells⟩
    rwa [(nameKey_eq_iff (plain_of_mem_names hknown)).2 hspells]

theorem ofName?_eq_some_iff (name : String) (d : Dialect) :
    ofName? name = some d ↔ nameKey name ∈ d.names := by
  constructor
  · intro h
    simpa using List.find?_some h
  · intro h
    have hfound : (ofName? name).isSome = true :=
      List.find?_isSome.2 ⟨d, d.mem_all, by simpa using h⟩
    obtain ⟨d', hd'⟩ := Option.isSome_iff_exists.1 hfound
    have hname : nameKey name ∈ d'.names := by simpa using List.find?_some hd'
    rw [hd', eq_of_mem_names hname h]

theorem parse_eq_ok_iff (name : String) (d : Dialect) :
    parse name = .ok d ↔ nameKey name ∈ d.names := by
  rw [← ofName?_eq_some_iff, parse]
  cases ofName? name <;> simp

theorem parse_eq_error_iff (name : String) (e : CompileError) :
    parse name = .error e ↔ e = .unsupportedDialect name ∧ ∀ d : Dialect, nameKey name ∉ d.names := by
  simp only [← ofName?_eq_some_iff, parse]
  cases ofName? name <;> simp [eq_comm]

theorem driverName_mem_names (d : Dialect) : d.driverName ∈ d.names := List.mem_cons_self

/-- White space around a name and the case of its ASCII letters do not matter, and nothing else is
let pass: a name that is read spells one of the dialect's own, and any other name is refused as it was
given. So all names of a dialect select tables that answer alike, and its driver's name selects it
however it is spelled. -/
theorem parse_up_to_spelling (s : String) :
    (∀ u v s' : String, Blank u.toList → Blank v.toList → SameUpToCase s s' →
        ∀ d, parse (u ++ s' ++ v) = .ok d ↔ parse s = .ok d) ∧
      (∀ d : Dialect, parse s = .ok d ↔ ∃ known ∈ d.names, Spells s known) ∧
      (∀ e, parse s = .error e ↔
        e = .unsupportedDialect s ∧ ∀ d : Dialect, ∀ known ∈ d.names, ¬ Spells s known) ∧
      (∀ t d, parse s = .ok d → parse t = .ok d → ∀ name, ∃ table table' : Table,
        Table.forDriver s name = .ok table ∧ Table.forDriver t name = .ok table' ∧
          table.Alike table') ∧
      ∀ (d : Dialect) (u v s' : String), Blank u.toList → Blank v.toList →
        SameUpToCase d.driverName s' → parse (u ++ s' ++ v) = .ok d := by
  refine ⟨fun u v s' hu hv hcase d => ?_, fun d => ?_, fun e => ?_, fun t d hs ht name => ?_,
    fun d u v s' hu hv hcase => ?_⟩
  · rw [parse_eq_ok_iff, parse_eq_ok_iff, nameKey_pad hu hv hcase]
  · rw [parse_eq_ok_iff, nameKey_mem_names_iff]
  · simp only [parse_eq_error_iff, nameKey_mem_names_iff, not_exists, not_and]
  · exact ⟨⟨d, name⟩, ⟨d, name⟩, Table.forDriver_of_parse hs name, Table.forDriver_of_parse ht name,
      fun _ => rfl, fun _ _ _ _ => rfl⟩
  · have hkey : nameKey d.driverName = d.driverName :=
      (nameKey_eq_iff (plain_of_mem_names d.driverName_mem_names)).2
        ⟨[], _, [], by decide, by decide, by simp, (Text.forall₂_sameLetter_iff _ _).2 rfl⟩
    rw [parse_eq_ok_iff, nameKey_pad hu hv hcase, hkey]
    exact d.driverName_mem_names

/-- An em space, a tab, a no-break space and an ideographic space around a name in other letters. -/
theorem parse_up_to_spelling_padded :
    let u := "\u2003\t"
    let v := "\u00a0\u3000"
    Blank u.toList ∧ Blank v.toList ∧ SameUpToCase "PostgreSQL" "pOSTGREsql" ∧
      parse (u ++ "pOSTGREsql" ++ v) = .ok .postgres ∧ parse (v ++ "PgSql" ++ u) = .ok .postgres ∧
      ∃ table table', Table.forDriver "PostgreSQL" "users" = .ok table ∧
        Table.forDriver (v ++ "PgSql" ++ u) "users" = .ok table' ∧ table.Alike table' := by
  intro u v
  obtain ⟨hpad, hknown, -, hsame, hdriver⟩ := parse_up_to_spelling "PostgreSQL"
  have hu : Blank u.toList := by decide
  have hv : Blank v.toList := by decide
  have hcase : SameUpToCase "PostgreSQL" "pOSTGREsql" :=
    (Text.forall₂_sameLetter_iff _ _).2 (by decide)
  have hdriverCase : SameUpToCase (driverName .postgres) "PgSql" :=
    (Text.forall₂_sameLetter_iff _ _).2 (by decide)
  have hlower : List.Forall₂ SameLetter "PostgreSQL".toList "postgresql".toList :=
    (Text.forall₂_sameLetter_iff _ _).2 (by decide)
  have hread : parse "PostgreSQL" = .ok .postgres :=
    (hknown _).2 ⟨"postgresql", by decide, [], _, [], by decide, by decide, by simp, hlower⟩
  have hpg := hdriver .postgres v u "PgSql" hv hu hdriverCase
  exact ⟨hu, hv, hcase, (hpad u v "pOSTGREsql" hu hv hcase _).2 hread, hpg,
    hsame _ _ hread hpg "users"⟩

/-- The long s is a letter like s, but none of ASCII. -/
example : parse " \u017fqlite" = .error (.unsupportedDialect " \u017fqlite") := by decide

end Dialect

end BulkWrite
