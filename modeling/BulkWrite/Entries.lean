/-!
Lists of named entries with distinct names, in the order in which the names were first written.
Writing an entry leaves the other ones and their order alone (`names_put`, `lookup_put`), and a
look-up does not depend on the order (`lookup_eq_of_perm`).
-/
namespace BulkWrite.Entries

variable {α : Type}

def names (es : List (String × α)) : List String := es.map Prod.fst

/-- Writes `v` under `name`, in the place of an earlier entry of that name or else at the end. -/
def put (name : String) (v : α) : List (String × α) → List (String × α)
  | [] => [(name, v)]
  | (n, w) :: es => if n = name then (n, v) :: es else (n, w) :: put name v es

def ofList (es : List (String × α)) : List (String × α) :=
  es.foldl (fun acc e => put e.1 e.2 acc) []

@[simp] theorem names_nil : names ([] : List (String × α)) = [] := rfl

@[simp] theorem names_cons (e : String × α) (es : List (String × α)) :
    names (e :: es) = e.1 :: names es := rfl

theorem names_map_snd {β : Type} (f : α → β) (es : List (String × α)) :
    names (es.map fun e => (e.1, f e.2)) = names es := by
  simp [names, Function.comp_def]

theorem put_map_snd {β : Type} (f : α → β) (name : String) (v : α) (es : List (String × α)) :
    put name (f v) (es.map fun e => (e.1, f e.2)) =
      (put name v es).map fun e => (e.1, f e.2) := by
  induction es with
  | nil => rfl
  | cons e es ih =>
    by_cases h : e.1 = name
    · simp [put, h]
    · simp [put, h, ih]

theorem eq_or_mem_of_mem_put {name : String} {v : α} {es : List (String × α)} {e : String × α}
    (h : e ∈ put name v es) : e = (name, v) ∨ e ∈ es := by
  induction es with
  | nil => exact .inl (List.mem_singleton.1 h)
  | cons f es ih =>
    unfold put at h
    split at h
    · next hn =>
      rcases List.mem_cons.1 h with rfl | h
      · exact .inl (by rw [hn])
      · exact .inr (List.mem_cons_of_mem _ h)
    · rcases List.mem_cons.1 h with rfl | h
      · exact .inr List.mem_cons_self
      · exact (ih h).imp_right (List.mem_cons_of_mem _)

theorem names_put (name : String) (v : α) (es : List (String × α)) :
    names (put name v es) = if name ∈ names es then names es else names es ++ [name] := by
  induction es with
  | nil => rfl
  | cons e es ih =>
    by_cases h : e.1 = name
    · simp [put, h]
    · have h' : ¬ name = e.1 := fun hn => h hn.symm
      by_cases hm : name ∈ names es <;> simp [put, h, h', ih, hm]

theorem nodup_names_put (name : String) (v : α) {es : List (String × α)}
    (h : (names es).Nodup) : (names (put name v es)).Nodup := by
  rw [names_put]
  split
  · exact h
  · next hm =>
    refine List.nodup_append.2 ⟨h, by simp, fun a ha b hb => ?_⟩
    rw [List.mem_singleton.1 hb]
    exact fun hab => hm (hab ▸ ha)

theorem lookup_cons (name : String) (e : String × α) (es : List (String × α)) :
    (e :: es).lookup name = if name = e.1 then some e.2 else es.lookup name := by
  obtain ⟨n, w⟩ := e
  by_cases h : name = n
  · simp [h]
  · simp [List.lookup_cons, h, beq_false_of_ne h]

theorem lookup_put (name other : String) (v : α) (es : List (String × α)) :
    (put name v es).lookup other = if other = name then some v else es.lookup other := by
  induction es with
  | nil => simp [put, lookup_cons]
  | cons e es ih =>
    by_cases h : e.1 = name
    · subst h
      simp only [put, if_true, lookup_cons]
      split <;> rfl
    · simp only [put, if_neg h, lookup_cons, ih]
      by_cases ho : other = e.1
      · simp [ho, h]
      · simp [ho]

theorem isSome_lookup_iff (name : String) (es : List (String × α)) :
    (es.lookup name).isSome = true ↔ name ∈ names es := by
  induction es with
  | nil => simp
  | cons e es ih =>
    rw [lookup_cons, names_cons, List.mem_cons]
    by_cases h : name = e.1
    · simp [h]
    · simp [h, ih]

theorem lookup_eq_some_iff_mem {es : List (String × α)} (h : (names es).Nodup)
    (name : String) (v : α) : es.lookup name = some v ↔ (name, v) ∈ es := by
  induction es with
  | nil => simp
  | cons e es ih =>
    rw [names_cons, List.nodup_cons] at h
    rw [lookup_cons, List.mem_cons]
    by_cases hn : name = e.1
    · subst hn
      have hm : ¬ (e.1, v) ∈ es := fun hm => h.1 (List.mem_map.2 ⟨_, hm, rfl⟩)
      simp [hm, Prod.ext_iff, eq_comm]
    · simp [hn, ih h.2, Prod.ext_iff]

theorem map_lookup_names {es : List (String × α)} (h : (names es).Nodup) :
    (names es).map (fun name => es.lookup name) = es.map fun e => some e.2 := by
  simp only [names, List.map_map]
  refine List.map_congr_left fun e he => ?_
  exact (lookup_eq_some_iff_mem h e.1 e.2).mpr he

/-- The order of the entries does not matter to a look-up. -/
theorem lookup_eq_of_perm {es fs : List (String × α)} (h : es.Perm fs) (hn : (names es).Nodup)
    (name : String) : es.lookup name = fs.lookup name := by
  have hf : (names fs).Nodup := (h.map Prod.fst).nodup_iff.1 hn
  refine Option.ext fun v => ?_
  rw [lookup_eq_some_iff_mem hn, lookup_eq_some_iff_mem hf, h.mem_iff]

theorem nodup_names_ofList (es : List (String × α)) : (names (ofList es)).Nodup := by
  suffices ∀ acc : List (String × α), (names acc).Nodup →
      (names (es.foldl (fun acc e => put e.1 e.2 acc) acc)).Nodup from this [] (by simp)
  induction es with
  | nil => exact fun acc h => h
  | cons e es ih => exact fun acc h => ih _ (nodup_names_put e.1 e.2 h)

theorem put_of_notMem {name : String} {v : α} {es : List (String × α)} (h : name ∉ names es) :
    put name v es = es ++ [(name, v)] := by
  induction es with
  | nil => rfl
  | cons e es ih =>
    rw [names_cons, List.mem_cons, not_or] at h
    rw [put, if_neg fun he => h.1 he.symm, ih h.2, List.cons_append]

theorem ofList_eq_self {es : List (String × α)} (h : (names es).Nodup) : ofList es = es := by
  suffices ∀ acc, (names (acc ++ es)).Nodup →
      es.foldl (fun acc e => put e.1 e.2 acc) acc = acc ++ es from this [] h
  clear h
  induction es with
  | nil => exact fun acc _ => (List.append_nil acc).symm
  | cons e es ih =>
    intro acc h
    have hsplit : acc ++ e :: es = (acc ++ [e]) ++ es := by simp
    have he : e.1 ∉ names acc := by
      simp only [names, List.map_append, List.map_cons, List.nodup_append] at h
      exact fun hm => h.2.2 e.1 hm e.1 List.mem_cons_self rfl
    rw [List.foldl_cons, put_of_notMem he, hsplit]
    exact ih _ (hsplit ▸ h)

end BulkWrite.Entries
