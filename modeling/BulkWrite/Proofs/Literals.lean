import Mathlib.Tactic.SplitIfs
import BulkWrite.Json.Reader

/-!
A text read with its number literals. The reader passes numbers on without looking at them
(`parseWith?_map`), so the document of a text is the one that keeps the literals with each of them
replaced by its value (`parse?_eq_values_read?`).
-/
namespace BulkWrite.Json

variable {ν μ : Type}

def Tree.map (f : ν → μ) : Tree ν → Tree μ
  | null => .null
  | bool b => .bool b
  | number n => .number (f n)
  | string s => .string s
  | array items => .array (items.map (map f))
  | object members => .object (members.map fun m => (m.1, map f m.2))
decreasing_by
  · have := List.sizeOf_lt_of_mem ‹_ ∈ items›
    simp only [array.sizeOf_spec]
    omega
  · obtain ⟨name, value⟩ := m
    have := List.sizeOf_lt_of_mem ‹_ ∈ members›
    simp only [Prod.mk.sizeOf_spec, object.sizeOf_spec] at *
    omega

def Token.map (f : ν → μ) : Token ν → Token μ
  | openBracket => .openBracket
  | closeBracket => .closeBracket
  | openBrace => .openBrace
  | closeBrace => .closeBrace
  | comma => .comma
  | colon => .colon
  | string s => .string s
  | atom value => .atom (value.map f)

namespace Token

theorem mark?_map (f : ν → μ) (c : Char) : mark? c = (mark? c).map (map f) := by
  unfold mark?
  split <;> rfl

variable (f : ν → μ) (number : List Char → Option ν)

theorem word?_map (cs : List Char) :
    word? (fun cs => (number cs).map f) cs = (word? number cs).map (map f) := by
  unfold word?
  split_ifs <;> simp [map, Tree.map, Function.comp_def]

theorem ofWord?_map (word : List Char) :
    ofWord? (fun cs => (number cs).map f) word = (ofWord? number word).map (List.map (map f)) := by
  unfold ofWord?
  split_ifs
  · rfl
  · simp [word?_map, Function.comp_def]

theorem scan?_map (mode : Mode) (cs : List Char) :
    scan? (fun cs => (number cs).map f) mode cs =
      (scan? number mode cs).map (List.map (map f)) := by
  fun_induction scan? number mode cs with
  | case1 word => rw [scan?, ofWord?_map]
  | case2 word c cs hc ih =>
    rw [scan?, if_pos hc, ofWord?_map, ih]
    cases ofWord? number word <;> cases scan? number (.outside []) cs <;> simp
  | case3 word cs hs ih =>
    rw [scan?, if_neg hs, if_pos rfl, ofWord?_map, ih]
    cases ofWord? number word <;> cases scan? number (.inside []) cs <;> simp
  | case4 word c cs hs hq mark hm ih =>
    have hm' : mark? c = some (map f mark) := by rw [mark?_map f, hm]; rfl
    rw [scan?, if_neg hs, if_neg hq, hm', ofWord?_map, ih]
    cases ofWord? number word <;> cases scan? number (.outside []) cs <;> simp
  | case5 word c cs hs hq hm ih =>
    have hm' : (mark? c : Option (Token μ)) = none := by rw [mark?_map f, hm]; rfl
    rw [scan?, if_neg hs, if_neg hq, hm', ih]
  | case6 body cs ih =>
    rw [scan?, if_pos rfl, ih]
    cases Text.decode? body.reverse <;> cases scan? number (.outside []) cs <;> simp [map]
  | case7 body cs hq ih => rw [scan?, if_neg hq, if_pos rfl, ih]
  | case8 body c cs hq hb ih => rw [scan?, if_neg hq, if_neg hb, ih]
  | case9 body c cs ih => rw [scan?, ih]
  | case10 | case11 => rw [scan?]; rfl

end Token

theorem tokens?_map (f : ν → μ) (number : List Char → Option ν) (text : String) :
    tokens? (fun cs => (number cs).map f) text =
      (tokens? number text).map (List.map (Token.map f)) :=
  Token.scan?_map f number _ _

namespace Reader

def Frame.map (f : ν → μ) : Frame ν → Frame μ
  | array items => .array (items.map (Tree.map f))
  | object members name => .object (members.map fun m => (m.1, m.2.map f)) name

def Place.map (f : ν → μ) : Place ν → Place μ
  | beforeValue frames => .beforeValue (frames.map (Frame.map f))
  | afterOpenBracket frames => .afterOpenBracket (frames.map (Frame.map f))
  | afterItem items frames => .afterItem (items.map (Tree.map f)) (frames.map (Frame.map f))
  | afterOpenBrace frames => .afterOpenBrace (frames.map (Frame.map f))
  | beforeName members frames =>
    .beforeName (members.map fun m => (m.1, m.2.map f)) (frames.map (Frame.map f))
  | afterName members name frames =>
    .afterName (members.map fun m => (m.1, m.2.map f)) name (frames.map (Frame.map f))
  | afterMember members frames =>
    .afterMember (members.map fun m => (m.1, m.2.map f)) (frames.map (Frame.map f))
  | afterEmbeddedName frames => .afterEmbeddedName (frames.map (Frame.map f))
  | beforeEmbedded frames => .beforeEmbedded (frames.map (Frame.map f))
  | afterEmbedded value frames => .afterEmbedded (value.map f) (frames.map (Frame.map f))
  | finished value => .finished (value.map f)

variable (f : ν → μ)

theorem complete_map {value : Tree ν} {value' : Tree μ} (h : value' = value.map f)
    (frames : List (Frame ν)) :
    complete value' (frames.map (Frame.map f)) = (complete value frames).map f := by
  subst h
  obtain _ | ⟨_ | _, frames⟩ := frames
  · rfl
  · rfl
  · simp [complete, Place.map, Frame.map, Entries.put_map_snd]

theorem begin?_map (frames : List (Frame ν)) (token : Token ν) :
    begin? (frames.map (Frame.map f)) (token.map f) = (begin? frames token).map (Place.map f) := by
  cases token with
  | openBracket | openBrace =>
    simp only [begin?, Token.map, List.length_map]
    split_ifs <;> rfl
  | string s => exact congrArg some (complete_map f (by rw [Tree.map]) frames)
  | atom value => exact congrArg some (complete_map f rfl frames)
  | _ => rfl

/-- An opening bracket is followed by a first item or by its end. -/
theorem step?_afterOpenBracket (e : String → Option (Tree ν)) (frames : List (Frame ν))
    {token : Token ν} (h : token ≠ .closeBracket) :
    step? e (.afterOpenBracket frames) token = begin? (.array [] :: frames) token := by
  cases token with
  | closeBracket => exact absurd rfl h
  | _ => rfl

/-- One step of the reader does not look at the numbers. -/
theorem step?_map {e : String → Option (Tree ν)} {e' : String → Option (Tree μ)}
    (h : ∀ s, e' s = (e s).map (Tree.map f)) (place : Place ν) (token : Token ν) :
    step? e' (place.map f) (token.map f) = (step? e place token).map (Place.map f) := by
  cases place with
  | beforeValue frames => exact begin?_map f frames token
  | afterOpenBracket frames =>
    cases token with
    | closeBracket => exact congrArg some (complete_map f (by simp [Tree.map]) frames)
    | _ =>
      rw [step?_afterOpenBracket e frames (by simp), ← begin?_map]
      rfl
  | afterItem items frames =>
    cases token with
    | closeBracket => exact congrArg some (complete_map f (by simp [Tree.map]) frames)
    | _ => rfl
  | afterOpenBrace frames =>
    cases token with
    | closeBrace => exact congrArg some (complete_map f (by simp [Tree.map]) frames)
    | string name =>
      simp only [Place.map, Token.map, step?]
      split_ifs <;> rfl
    | _ => rfl
  | afterMember members frames =>
    cases token with
    | closeBrace => exact congrArg some (complete_map f (by rw [Tree.map]) frames)
    | _ => rfl
  | beforeEmbedded frames =>
    cases token with
    | string text => simp [Place.map, Token.map, step?, h, Function.comp_def]
    | _ => rfl
  | afterEmbedded value frames =>
    cases token with
    | closeBrace => exact congrArg some (complete_map f rfl frames)
    | _ => rfl
  | _ => cases token <;> rfl

theorem value?_map (place : Place ν) : (place.map f).value? = place.value?.map (Tree.map f) := by
  cases place <;> rfl

theorem foldlM_step?_map {e : String → Option (Tree ν)} {e' : String → Option (Tree μ)}
    (h : ∀ s, e' s = (e s).map (Tree.map f)) (tokens : List (Token ν)) (place : Place ν) :
    (tokens.map (Token.map f)).foldlM (step? e') (place.map f) =
      (tokens.foldlM (step? e) place).map (Place.map f) := by
  induction tokens generalizing place with
  | nil => rfl
  | cons token tokens ih =>
    simp only [List.map_cons, List.foldlM_cons, step?_map f h]
    cases step? e place token with
    | none => rfl
    | some next => exact ih next

end Reader

theorem ofTokens?_map (f : ν → μ) {e : String → Option (Tree ν)} {e' : String → Option (Tree μ)}
    (h : ∀ s, e' s = (e s).map (Tree.map f)) (tokens : List (Token ν)) :
    ofTokens? e' (tokens.map (Token.map f)) = (ofTokens? e tokens).map (Tree.map f) := by
  have hrun := Reader.foldlM_step?_map f h tokens (.beforeValue [])
  simp only [Reader.Place.map, List.map_nil] at hrun
  rw [ofTokens?, ofTokens?, hrun]
  cases tokens.foldlM (Reader.step? e) (.beforeValue []) with
  | none => rfl
  | some place => exact Reader.value?_map f place

/-- What the literals are read as does not matter to anything but the numbers. -/
theorem parseWith?_map (f : ν → μ) (number : List Char → Option ν) (text : String) :
    parseWith? (fun cs => (number cs).map f) text =
      (parseWith? number text).map (Tree.map f) := by
  -- The depth of embedding carries the induction: an embedded text is read with one less.
  suffices ∀ limit text, parseWithin? (fun cs => (number cs).map f) limit text =
      (parseWithin? number limit text).map (Tree.map f) from this _ text
  intro limit
  induction limit with
  | zero => exact fun text => rfl
  | succ limit ih =>
    intro text
    simp only [parseWithin?, tokens?_map]
    cases tokens? number text with
    | none => rfl
    | some tokens => exact ofTokens?_map f ih tokens

/-- A number literal as it stands in a text, with its value. -/
structure Literal where
  characters : List Char
  value : Number
  value_eq : number? characters = some value

namespace Literal

def ofChars? (cs : List Char) : Option Literal :=
  match h : number? cs with
  | some n => some ⟨cs, n, h⟩
  | none => none

theorem number?_eq (cs : List Char) : number? cs = (ofChars? cs).map value := by
  unfold ofChars?
  split <;> simp [*]

end Literal

/-- The document of a text, with its literals. -/
def read? (text : String) : Option (Tree Literal) := parseWith? Literal.ofChars? text

def Tree.values (doc : Tree Literal) : Json := doc.map Literal.value

theorem parse?_eq_values_read? (text : String) : parse? text = (read? text).map Tree.values := by
  unfold Tree.values
  rw [read?, ← parseWith?_map, parse?]
  congr
  exact funext Literal.number?_eq

/-- In every object the members have distinct names. -/
inductive Tree.Distinct : Tree ν → Prop
  | null : Distinct .null
  | bool (b : Bool) : Distinct (.bool b)
  | number (n : ν) : Distinct (.number n)
  | string (s : String) : Distinct (.string s)
  | array {items : List (Tree ν)} (h : ∀ t ∈ items, t.Distinct) : Distinct (.array items)
  | object {members : List (String × Tree ν)} (hn : (Entries.names members).Nodup)
    (h : ∀ m ∈ members, m.2.Distinct) : Distinct (.object members)

def Token.Distinct : Token ν → Prop
  | atom value => value.Distinct
  | _ => True

namespace Token

theorem distinct_of_mark? {c : Char} {token : Token ν} (h : mark? c = some token) :
    token.Distinct := by
  unfold mark? at h
  split at h <;> cases h <;> trivial

theorem distinct_of_word? {number : List Char → Option ν} {cs : List Char} {token : Token ν}
    (h : word? number cs = some token) : token.Distinct := by
  unfold word? at h
  split_ifs at h
  · obtain rfl := Option.some.inj h
    exact .null
  · obtain rfl := Option.some.inj h
    exact .bool true
  · obtain rfl := Option.some.inj h
    exact .bool false
  · obtain ⟨n, -, rfl⟩ := Option.map_eq_some_iff.1 h
    exact .number n

theorem distinct_of_ofWord? {number : List Char → Option ν} {word : List Char}
    {tokens : List (Token ν)} (h : ofWord? number word = some tokens) :
    ∀ t ∈ tokens, t.Distinct := by
  unfold ofWord? at h
  split_ifs at h
  · simp [← Option.some.inj h]
  · obtain ⟨token, ht, rfl⟩ := Option.map_eq_some_iff.1 h
    simpa using distinct_of_word? ht

theorem distinct_of_scan? {number : List Char → Option ν} {mode : Mode} {cs : List Char}
    {tokens : List (Token ν)} (h : scan? number mode cs = some tokens) :
    ∀ t ∈ tokens, t.Distinct := by
  fun_induction scan? number mode cs generalizing tokens with
  | case1 => exact distinct_of_ofWord? h
  | case2 | case3 =>
    simp only [Option.bind_eq_bind, Option.bind_eq_some_iff, Option.pure_def,
      Option.some.injEq] at h
    obtain ⟨before, hb, after, ha, rfl⟩ := h
    have := distinct_of_ofWord? hb
    grind
  | case4 word c cs hs hq mark hm ih =>
    simp only [Option.bind_eq_bind, Option.bind_eq_some_iff, Option.pure_def,
      Option.some.injEq] at h
    obtain ⟨before, hb, after, ha, rfl⟩ := h
    have := distinct_of_ofWord? hb
    have := distinct_of_mark? hm
    grind
  | case6 body cs ih =>
    simp only [Option.bind_eq_bind, Option.bind_eq_some_iff, Option.pure_def,
      Option.some.injEq] at h
    obtain ⟨s, hs, after, ha, rfl⟩ := h
    simpa [Distinct] using ih ha
  | _ => grind

end Token

namespace Reader

def Frame.Distinct : Frame ν → Prop
  | array items => (Tree.array items).Distinct
  | object members _ => (Tree.object members).Distinct

/-- The invariant of the reader. -/
def Place.Distinct : Place ν → Prop
  | beforeValue frames | afterOpenBracket frames | afterOpenBrace frames
  | afterEmbeddedName frames | beforeEmbedded frames => ∀ frame ∈ frames, frame.Distinct
  | afterItem items frames => (Tree.array items).Distinct ∧ ∀ frame ∈ frames, frame.Distinct
  | beforeName members frames | afterName members _ frames | afterMember members frames =>
    (Tree.object members).Distinct ∧ ∀ frame ∈ frames, frame.Distinct
  | afterEmbedded value frames => value.Distinct ∧ ∀ frame ∈ frames, frame.Distinct
  | finished value => value.Distinct

theorem distinct_put {name : String} {value : Tree ν} {members : List (String × Tree ν)}
    (hv : value.Distinct) (h : (Tree.object members).Distinct) :
    (Tree.object (Entries.put name value members)).Distinct := by
  cases h with
  | object hn hm =>
    refine .object (Entries.nodup_names_put name value hn) fun m hmem => ?_
    rcases Entries.eq_or_mem_of_mem_put hmem with rfl | hmem
    · exact hv
    · exact hm m hmem

theorem distinct_complete {value : Tree ν} {frames : List (Frame ν)} (hv : value.Distinct)
    (h : ∀ frame ∈ frames, frame.Distinct) : (complete value frames).Distinct := by
  obtain _ | ⟨items | ⟨members, name⟩, frames⟩ := frames
  · exact hv
  · obtain ⟨hf, hfs⟩ := List.forall_mem_cons.1 h
    cases hf with
    | array hi => exact ⟨.array (List.forall_mem_cons.2 ⟨hv, hi⟩), hfs⟩
  · obtain ⟨hf, hfs⟩ := List.forall_mem_cons.1 h
    exact ⟨distinct_put hv hf, hfs⟩

theorem distinct_begin? {frames : List (Frame ν)} {token : Token ν} {next : Place ν}
    (h : begin? frames token = some next) (hf : ∀ frame ∈ frames, frame.Distinct)
    (ht : token.Distinct) : next.Distinct := by
  cases token with
  | openBracket | openBrace =>
    simp only [begin?] at h
    split_ifs at h
    obtain rfl := Option.some.inj h
    exact hf
  | string s =>
    obtain rfl := Option.some.inj h
    exact distinct_complete (.string s) hf
  | atom value =>
    obtain rfl := Option.some.inj h
    exact distinct_complete ht hf
  | _ => cases h

theorem distinct_step? {e : String → Option (Tree ν)} {place next : Place ν} {token : Token ν}
    (he : ∀ s value, e s = some value → value.Distinct) (h : step? e place token = some next)
    (hp : place.Distinct) (ht : token.Distinct) : next.Distinct := by
  -- One case for each place, with the tokens that may follow it.
  have hnil : (Tree.array ([] : List (Tree ν))).Distinct := .array (by simp)
  have hnone : (Tree.object ([] : List (String × Tree ν))).Distinct := .object (by simp) (by simp)
  cases place with
  | beforeValue frames => exact distinct_begin? h hp ht
  | afterOpenBracket frames =>
    by_cases hc : token = .closeBracket
    · subst hc
      obtain rfl := Option.some.inj h
      exact distinct_complete hnil hp
    · rw [step?_afterOpenBracket e frames hc] at h
      exact distinct_begin? h (List.forall_mem_cons.2 ⟨hnil, hp⟩) ht
  | afterItem items frames =>
    cases token with
    | comma =>
      obtain rfl := Option.some.inj h
      exact List.forall_mem_cons.2 hp
    | closeBracket =>
      obtain rfl := Option.some.inj h
      cases hp.1 with
      | array hi => exact distinct_complete (.array fun t ht => hi t (List.mem_reverse.1 ht)) hp.2
    | _ => cases h
  | afterOpenBrace frames =>
    cases token with
    | closeBrace =>
      obtain rfl := Option.some.inj h
      exact distinct_complete hnone hp
    | string name =>
      simp only [step?] at h
      split_ifs at h
      · obtain rfl := Option.some.inj h
        exact hp
      · obtain rfl := Option.some.inj h
        exact ⟨hnone, hp⟩
    | _ => cases h
  | beforeName members frames =>
    cases token with
    | string name =>
      obtain rfl := Option.some.inj h
      exact hp
    | _ => cases h
  | afterName members name frames =>
    cases token with
    | colon =>
      obtain rfl := Option.some.inj h
      exact List.forall_mem_cons.2 hp
    | _ => cases h
  | afterMember members frames =>
    cases token with
    | comma =>
      obtain rfl := Option.some.inj h
      exact hp
    | closeBrace =>
      obtain rfl := Option.some.inj h
      exact distinct_complete hp.1 hp.2
    | _ => cases h
  | afterEmbeddedName frames =>
    cases token with
    | colon =>
      obtain rfl := Option.some.inj h
      exact hp
    | _ => cases h
  | beforeEmbedded frames =>
    cases token with
    | string text =>
      obtain ⟨value, hv, rfl⟩ := Option.map_eq_some_iff.1 h
      exact ⟨he text value hv, hp⟩
    | _ => cases h
  | afterEmbedded value frames =>
    cases token with
    | closeBrace =>
      obtain rfl := Option.some.inj h
      exact distinct_complete hp.1 hp.2
    | _ => cases h
  | finished value => cases token <;> cases h

theorem distinct_foldlM {e : String → Option (Tree ν)} {tokens : List (Token ν)}
    {place last : Place ν} (he : ∀ s value, e s = some value → value.Distinct)
    (ht : ∀ t ∈ tokens, t.Distinct) (h : tokens.foldlM (step? e) place = some last)
    (hp : place.Distinct) : last.Distinct := by
  induction tokens generalizing place with
  | nil =>
    obtain rfl := Option.some.inj h
    exact hp
  | cons token tokens ih =>
    obtain ⟨htoken, htokens⟩ := List.forall_mem_cons.1 ht
    rw [List.foldlM_cons] at h
    obtain ⟨next, hnext, hlast⟩ := Option.bind_eq_some_iff.1 h
    exact ih htokens hlast (distinct_step? he hnext hp htoken)

end Reader

theorem distinct_ofTokens? {e : String → Option (Tree ν)} {tokens : List (Token ν)}
    {doc : Tree ν} (he : ∀ s value, e s = some value → value.Distinct)
    (ht : ∀ t ∈ tokens, t.Distinct) (h : ofTokens? e tokens = some doc) : doc.Distinct := by
  obtain ⟨last, hlast, hdoc⟩ := Option.bind_eq_some_iff.1 h
  have hd := Reader.distinct_foldlM he ht hlast (by simp [Reader.Place.Distinct])
  cases last with
  | finished value =>
    obtain rfl := Option.some.inj hdoc
    exact hd
  | _ => cases hdoc

theorem distinct_of_parseWith? {number : List Char → Option ν} {text : String} {doc : Tree ν}
    (h : parseWith? number text = some doc) : doc.Distinct := by
  suffices ∀ limit text doc, parseWithin? number limit text = some doc → doc.Distinct from
    this _ text doc h
  intro limit
  induction limit with
  | zero => exact fun text doc h => nomatch h
  | succ limit ih =>
    intro text doc h
    obtain ⟨tokens, ht, hdoc⟩ := Option.bind_eq_some_iff.1 h
    exact distinct_ofTokens? ih (Token.distinct_of_scan? ht) hdoc

end BulkWrite.Json
