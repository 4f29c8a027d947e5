import BulkWrite.Text.Quoted
import Mathlib.Data.List.Basic

/-!
Readers of printed texts. `Recovers` says that an item is found again in front of any text that does
not begin with one of `stops`, and `Reads` that besides this nothing else is read. Quoted text is read
back (`reads_quoted`), and so are lists of items with a separator (`Recovers.sepBy`).
-/
namespace BulkWrite.Text

/-- `rest` does not begin with any of `stops`. -/
def Apart (stops rest : List Char) : Prop := ∀ c ∈ rest.head?, c ∉ stops

@[simp] theorem apart_nil (stops : List Char) : Apart stops [] := by
  simp [Apart]

@[simp] theorem apart_no_stops (rest : List Char) : Apart [] rest := by
  simp [Apart]

@[simp] theorem apart_cons (stops : List Char) (c : Char) (rest : List Char) :
    Apart stops (c :: rest) ↔ c ∉ stops := by
  simp [Apart]

theorem Apart.mono {stops stops' rest : List Char} (h : Apart stops' rest)
    (hsub : stops ⊆ stops') : Apart stops rest :=
  fun c hc hmem => h c hc (hsub hmem)

theorem Apart.not_isPrefix {stops rest separator : List Char} {c : Char} (h : Apart stops rest)
    (hc : c ∈ stops) : ¬ c :: separator <+: rest := by
  rintro ⟨tail, rfl⟩
  exact h c (by simp) hc

/-- Takes one item off the front of a text, and at least one character with it. -/
structure Reader (α : Type) where
  read : List Char → Option (α × List Char)
  shortens : ∀ {text : List Char} {x : α} {rest : List Char},
    read text = some (x, rest) → rest.length < text.length

namespace Reader

variable {α β : Type}

/-- `r` finds `x` in what was printed for it, unless one of `stops` follows. -/
def Recovers (r : Reader α) (stops printed : List Char) (x : α) : Prop :=
  ∀ rest, Apart stops rest → r.read (printed ++ rest) = some (x, rest)

/-- `r` reads what `print` writes, unless one of `stops` follows, and nothing else. -/
def Reads (r : Reader α) (print : α → List Char) (stops : List Char) : Prop :=
  ∀ text x rest, r.read text = some (x, rest) ↔ text = print x ++ rest ∧ Apart stops rest

theorem Recovers.mono {r : Reader α} {stops stops' printed : List Char} {x : α}
    (h : r.Recovers stops printed x) (hsub : stops ⊆ stops') : r.Recovers stops' printed x :=
  fun rest hrest => h rest (hrest.mono hsub)

theorem Reads.recovers {r : Reader α} {print : α → List Char} {stops : List Char}
    (h : r.Reads print stops) (x : α) : r.Recovers stops (print x) x :=
  fun rest hrest => (h _ x rest).2 ⟨rfl, hrest⟩

/-- What a reader finds again can be read in one way only. -/
theorem Recovers.inj {r : Reader α} {stops printed printed' rest rest' : List Char} {x y : α}
    (hx : r.Recovers stops printed x) (hy : r.Recovers stops printed' y) (hrest : Apart stops rest)
    (hrest' : Apart stops rest') (heq : printed ++ rest = printed' ++ rest') :
    x = y ∧ rest = rest' := by
  have hread := hx rest hrest
  rw [heq, hy rest' hrest'] at hread
  obtain ⟨rfl, rfl⟩ := Prod.mk.inj (Option.some.inj hread)
  exact ⟨rfl, rfl⟩

def map (f : α → β) (r : Reader α) : Reader β where
  read text := (r.read text).map fun p => (f p.1, p.2)
  shortens h := by
    obtain ⟨p, hread, hx⟩ := Option.map_eq_some_iff.1 h
    obtain ⟨-, rfl⟩ := Prod.mk.inj hx
    exact r.shortens hread

theorem Recovers.map {r : Reader α} {stops printed : List Char} {x : α}
    (h : r.Recovers stops printed x) (f : α → β) : (r.map f).Recovers stops printed (f x) :=
  fun rest hrest => Option.map_eq_some_iff.2 ⟨(x, rest), h rest hrest, rfl⟩

def filterMap (f : α → Option β) (r : Reader α) : Reader β where
  read text := (r.read text).bind fun p => (f p.1).map fun y => (y, p.2)
  shortens h := by
    obtain ⟨p, hread, hp⟩ := Option.bind_eq_some_iff.1 h
    obtain ⟨y, -, hy⟩ := Option.map_eq_some_iff.1 hp
    obtain ⟨-, rfl⟩ := Prod.mk.inj hy
    exact r.shortens hread

theorem Recovers.filterMap {r : Reader α} {stops printed : List Char} {x : α} {y : β}
    {f : α → Option β} (h : r.Recovers stops printed x) (hf : f x = some y) :
    (r.filterMap f).Recovers stops printed y := by
  intro rest hrest
  simp [Reader.filterMap, h rest hrest, hf]

def run (chars : List Char) : Reader (List Char) where
  read text :=
    if text.takeWhile chars.contains = [] then none
    else some (text.takeWhile chars.contains, text.dropWhile chars.contains)
  shortens {text _ _} h := by
    obtain ⟨hne, h⟩ := Option.ite_none_left_eq_some.1 h
    obtain ⟨-, rfl⟩ := Prod.mk.inj (Option.some.inj h)
    have hpos := List.length_pos_of_ne_nil hne
    have hsplit := congrArg List.length
      (List.takeWhile_append_dropWhile (p := chars.contains) (l := text))
    rw [List.length_append] at hsplit
    omega

theorem recovers_run {chars word : List Char} (hne : word ≠ []) (h : ∀ c ∈ word, c ∈ chars) :
    (run chars).Recovers chars word word := by
  intro rest hrest
  have hword : ∀ c ∈ word, chars.contains c = true := fun c hc => List.contains_iff_mem.2 (h c hc)
  have hstop : ∀ c ∈ rest.head?, ¬ chars.contains c = true := fun c hc hmem =>
    hrest c hc (List.contains_iff_mem.1 hmem)
  have htake : (word ++ rest).takeWhile chars.contains = word := by
    rw [List.takeWhile_append_of_pos hword]
    cases rest with
    | nil => exact List.append_nil word
    | cons c rest => rw [List.takeWhile_cons_of_neg (hstop c rfl), List.append_nil]
  have hdrop : (word ++ rest).dropWhile chars.contains = rest := by
    rw [List.dropWhile_append_of_pos hword]
    cases rest with
    | nil => rfl
    | cons c rest => exact List.dropWhile_cons_of_neg (hstop c rfl)
  change (if _ = [] then none else _) = _
  rw [htake, hdrop, if_neg hne]

def keyword (word : List Char) (hword : word ≠ []) (x : α) : Reader α where
  read text := if word.isPrefixOf text then some (x, text.drop word.length) else none
  shortens {text _ rest} h := by
    obtain ⟨hbegins, h⟩ := Option.ite_none_right_eq_some.1 h
    obtain ⟨-, rfl⟩ := Prod.mk.inj (Option.some.inj h)
    have hpos := List.length_pos_of_ne_nil hword
    have hle := (List.isPrefixOf_iff_prefix.1 hbegins).length_le
    rw [List.length_drop]
    omega

theorem recovers_keyword (word : List Char) (hword : word ≠ []) (x : α) :
    (keyword word hword x).Recovers [] word x := by
  intro rest _
  simp [keyword]

/-- The first character of an item tells how the item is read. -/
def byHead (f : Char → Reader α) : Reader α where
  read
    | [] => none
    | c :: text => (f c).read (c :: text)
  shortens {text _ _} h := by
    cases text with
    | nil => cases h
    | cons c text => exact (f c).shortens h

theorem Recovers.byHead {f : Char → Reader α} {stops printed : List Char} {x : α} {c : Char}
    (h : (f c).Recovers stops (c :: printed) x) :
    (byHead f).Recovers stops (c :: printed) x :=
  fun rest hrest => h rest hrest

def after (c : Char) (r : Reader α) : Reader α where
  read
    | [] => none
    | d :: text => if d = c then r.read text else none
  shortens {text _ rest} h := by
    cases text with
    | nil => cases h
    | cons d text =>
      obtain ⟨-, hread⟩ := Option.ite_none_right_eq_some.1 h
      exact Nat.lt_succ_of_lt (r.shortens hread)

theorem Recovers.after {r : Reader α} {stops printed : List Char} {x : α}
    (h : r.Recovers stops printed x) (c : Char) :
    (r.after c).Recovers stops (c :: printed) x := by
  intro rest hrest
  change (if c = c then r.read (printed ++ rest) else none) = _
  rw [if_pos rfl, h rest hrest]

variable (r : Reader α) (separator : List Char)

/-- One item, and more of them for as long as a separator follows. -/
def readSepBy (text : List Char) : Option (List α × List Char) :=
  match _h : r.read text with
  | none => none
  | some (x, rest) =>
    if separator.isPrefixOf rest then
      (readSepBy (rest.drop separator.length)).map fun p => (x :: p.1, p.2)
    else some ([x], rest)
termination_by text.length
decreasing_by
  have hlt := r.shortens _h
  rw [List.length_drop]
  omega

variable {r separator} {text rest : List Char} {x : α}

theorem readSepBy_of_none (h : r.read text = none) : r.readSepBy separator text = none := by
  rw [readSepBy]
  split <;> simp_all

theorem readSepBy_of_last (h : r.read text = some (x, rest)) (hsep : ¬ separator <+: rest) :
    r.readSepBy separator text = some ([x], rest) := by
  rw [readSepBy]
  split <;> simp_all

theorem readSepBy_of_more (h : r.read text = some (x, separator ++ rest)) :
    r.readSepBy separator text =
      (r.readSepBy separator rest).map fun p => (x :: p.1, p.2) := by
  rw [readSepBy]
  split <;> simp_all

theorem length_lt_of_readSepBy {xs : List α} (h : r.readSepBy separator text = some (xs, rest)) :
    rest.length < text.length := by
  induction text using readSepBy.induct r separator generalizing xs rest with
  | case1 text hnone =>
    rw [readSepBy_of_none hnone] at h
    cases h
  | case2 text x tail hsome hsep ih =>
    obtain ⟨tail, rfl⟩ := List.isPrefixOf_iff_prefix.1 hsep
    rw [readSepBy_of_more hsome] at h
    obtain ⟨p, hread, hp⟩ := Option.map_eq_some_iff.1 h
    obtain ⟨-, rfl⟩ := Prod.mk.inj hp
    have hlt := r.shortens hsome
    have hlt' := ih (by simpa using hread)
    simp only [List.length_append, List.drop_left] at hlt hlt'
    omega
  | case3 text x tail hsome hsep =>
    rw [List.isPrefixOf_iff_prefix] at hsep
    rw [readSepBy_of_last hsome hsep] at h
    obtain ⟨-, rfl⟩ := Prod.mk.inj (Option.some.inj h)
    exact r.shortens hsome

variable (r separator) in
/-- One or more items with a separator between neighbours. -/
def sepBy : Reader (List α) := ⟨r.readSepBy separator, length_lt_of_readSepBy⟩

/-- The separator is no part of an item, and shields each item from the next one. -/
theorem Recovers.sepBy {print : α → List Char} {stops : List Char} {c : Char} (tail : List Char)
    (hc : c ∉ stops) {xs : List α} (hxs : xs ≠ []) (h : ∀ x ∈ xs, r.Recovers stops (print x) x) :
    (r.sepBy (c :: tail)).Recovers (c :: stops) ((c :: tail).intercalate (xs.map print)) xs := by
  intro rest hrest
  have hlast : ¬ c :: tail <+: rest := hrest.not_isPrefix List.mem_cons_self
  have hapart : Apart stops rest := hrest.mono (List.subset_cons_self c stops)
  change r.readSepBy (c :: tail) _ = _
  induction xs with
  | nil => exact absurd rfl hxs
  | cons x xs ih =>
    rw [List.forall_mem_cons] at h
    cases xs with
    | nil =>
      rw [List.map_cons, List.map_nil, List.intercalate_singleton]
      exact readSepBy_of_last (h.1 rest hapart) hlast
    | cons y ys =>
      have hread := ih (List.cons_ne_nil y ys) h.2
      rw [List.map_cons] at hread
      rw [List.map_cons, List.map_cons, List.intercalate_cons_cons, List.append_assoc,
        List.append_assoc, readSepBy_of_more (h.1 _ (by simpa using hc)), hread]
      rfl

theorem Recovers.sepBy_comma {print : α → String} {stops : List Char} (hcomma : ',' ∉ stops)
    {xs : List α} (hxs : xs ≠ []) (h : ∀ x ∈ xs, r.Recovers stops (print x).toList x) :
    (r.sepBy [',', ' ']).Recovers (',' :: stops) (", ".intercalate (xs.map print)).toList xs := by
  have htext : (", ".intercalate (xs.map print)).toList =
      [',', ' '].intercalate (xs.map fun x => (print x).toList) := by
    rw [String.toList_intercalate, List.map_map]
    rfl
  rw [htext]
  exact Recovers.sepBy [' '] hcomma hxs h

theorem Reads.of_sepBy {print : α → List Char} {stops : List Char} (h : r.Reads print stops)
    {xs : List α} (hread : (r.sepBy separator).read text = some (xs, rest)) :
    xs ≠ [] ∧ text = separator.intercalate (xs.map print) ++ rest ∧ Apart stops rest ∧
      ¬ separator <+: rest := by
  change r.readSepBy separator text = some (xs, rest) at hread
  induction text using readSepBy.induct r separator generalizing xs rest with
  | case1 text hnone =>
    rw [readSepBy_of_none hnone] at hread
    cases hread
  | case2 text x tail hsome hsep ih =>
    obtain ⟨tail, rfl⟩ := List.isPrefixOf_iff_prefix.1 hsep
    rw [readSepBy_of_more hsome] at hread
    obtain ⟨⟨ys, rest'⟩, hmore, hp⟩ := Option.map_eq_some_iff.1 hread
    obtain ⟨rfl, rfl⟩ := Prod.mk.inj hp
    obtain ⟨rfl, -⟩ := (h _ _ _).1 hsome
    rw [List.drop_left] at ih
    obtain ⟨hys, rfl, hrest⟩ := ih hmore
    refine ⟨List.cons_ne_nil x ys, ?_, hrest⟩
    rw [List.map_cons, List.intercalate_cons_of_ne_nil (by simpa using hys)]
    simp only [List.append_assoc]
  | case3 text x tail hsome hsep =>
    rw [List.isPrefixOf_iff_prefix] at hsep
    rw [readSepBy_of_last hsome hsep] at hread
    obtain ⟨rfl, rfl⟩ := Prod.mk.inj (Option.some.inj hread)
    obtain ⟨rfl, hapart⟩ := (h _ _ _).1 hsome
    exact ⟨List.cons_ne_nil x [], by simp, hapart, hsep⟩

end Reader

/-- The body of a quoted text and what follows the closing quote. -/
def unescape (closing : Char) : List Char → Option (List Char × List Char)
  | [] => none
  | c :: text =>
    if c = closing then
      match text with
      | [] => some ([], [])
      | d :: rest =>
        if d = closing then (unescape closing rest).map fun p => (c :: p.1, p.2)
        else some ([], d :: rest)
    else (unescape closing text).map fun p => (c :: p.1, p.2)

theorem unescape_doubled (closing : Char) (text : List Char) :
    unescape closing (closing :: closing :: text) =
      (unescape closing text).map fun p => (closing :: p.1, p.2) := by
  simp [unescape]

theorem unescape_closing {closing : Char} {rest : List Char} (h : Apart [closing] rest) :
    unescape closing (closing :: rest) = some ([], rest) := by
  cases rest with
  | nil => simp [unescape]
  | cons d rest =>
    have hd : d ≠ closing := by simpa using h
    simp [unescape, hd]

theorem unescape_inside {c closing : Char} (h : c ≠ closing) (text : List Char) :
    unescape closing (c :: text) = (unescape closing text).map fun p => (c :: p.1, p.2) := by
  cases text <;> simp [unescape, h]

/-- A lone closing quote ends the body, since the ones inside are doubled. -/
theorem unescape_escape {closing : Char} {rest : List Char} (h : Apart [closing] rest)
    (body : List Char) :
    unescape closing (escape closing body ++ closing :: rest) = some (body, rest) := by
  induction body with
  | nil => exact unescape_closing h
  | cons c body ih =>
    by_cases hc : c = closing
    · subst hc
      rw [escape_cons_self, List.cons_append, List.cons_append, unescape_doubled, ih]
      rfl
    · rw [escape_cons_of_ne hc, List.cons_append, unescape_inside hc, ih]
      rfl

theorem eq_of_unescape {closing : Char} {text body rest : List Char}
    (h : unescape closing text = some (body, rest)) :
    text = escape closing body ++ closing :: rest ∧ Apart [closing] rest := by
  induction text using unescape.induct closing generalizing body rest with
  | case1 => cases h
  | case2 =>
    rw [unescape_closing (apart_nil _)] at h
    obtain ⟨rfl, rfl⟩ := Prod.mk.inj (Option.some.inj h)
    exact ⟨rfl, apart_nil _⟩
  | case3 text ih =>
    rw [unescape_doubled] at h
    obtain ⟨⟨body, rest⟩, htext, hp⟩ := Option.map_eq_some_iff.1 h
    obtain ⟨rfl, rfl⟩ := Prod.mk.inj hp
    obtain ⟨rfl, hrest⟩ := ih htext
    exact ⟨by rw [escape_cons_self]; rfl, hrest⟩
  | case4 d text hd =>
    have hapart : Apart [closing] (d :: text) := by simpa using hd
    rw [unescape_closing hapart] at h
    obtain ⟨rfl, rfl⟩ := Prod.mk.inj (Option.some.inj h)
    exact ⟨rfl, hapart⟩
  | case5 c text hc ih =>
    rw [unescape_inside hc] at h
    obtain ⟨⟨body, rest⟩, htext, hp⟩ := Option.map_eq_some_iff.1 h
    obtain ⟨rfl, rfl⟩ := Prod.mk.inj hp
    obtain ⟨rfl, hrest⟩ := ih htext
    exact ⟨by rw [escape_cons_of_ne hc]; rfl, hrest⟩

namespace Reader

def quoted (opening closing : Char) : Reader (List Char) where
  read
    | [] => none
    | c :: text => if c = opening then unescape closing text else none
  shortens {text body rest} h := by
    cases text with
    | nil => cases h
    | cons c text =>
      obtain ⟨-, hbody⟩ := Option.ite_none_right_eq_some.1 h
      obtain ⟨rfl, -⟩ := eq_of_unescape hbody
      simp only [List.length_cons, List.length_append]
      omega

theorem reads_quoted (opening closing : Char) :
    (quoted opening closing).Reads (Text.quoted opening closing) [closing] := by
  intro text body rest
  constructor
  · intro h
    cases text with
    | nil => cases h
    | cons c text =>
      obtain ⟨rfl, hbody⟩ := Option.ite_none_right_eq_some.1 h
      obtain ⟨rfl, hrest⟩ := eq_of_unescape hbody
      exact ⟨by simp [Text.quoted], hrest⟩
  · rintro ⟨rfl, hrest⟩
    simpa [Text.quoted, quoted] using unescape_escape hrest body

end Reader

end BulkWrite.Text
