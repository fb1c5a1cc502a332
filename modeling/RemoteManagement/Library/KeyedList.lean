import Mathlib.Data.List.Nodup

/-!
# Find or append

A list is kept by key: an entry is written to the first element that has its
key, or appended if there is none. The element that a key ends up with depends
only on the entries with that key, in their order. Elements that share a key
with an earlier one are never touched.
-/

namespace KeyedList

universe u v w

variable {α : Type u} {ε : Type v} {κ : Type w} [DecidableEq κ]
variable (key : α → κ) (entryKey : ε → κ) (write : Option α → ε → α)

def upsert (e : ε) : List α → List α
  | [] => [write none e]
  | a :: as => if key a = entryKey e then write (some a) e :: as else a :: upsert e as

def upsertAll (l : List α) (es : List ε) : List α :=
  es.foldl (fun l e => upsert key entryKey write e l) l

def lookup (k : κ) (l : List α) : Option α := l.find? (fun a => key a = k)

/-- The entries of one key. -/
def entriesOf (k : κ) (es : List ε) : List ε := es.filter (fun e => entryKey e = k)

/-- What a key's element becomes under that key's entries. -/
def amend (o : Option α) (es : List ε) : Option α :=
  es.foldl (fun o e => some (write o e)) o

/-- The keys of entries that no element has, in the order of their first occurrence. -/
def newKeys (l : List α) (es : List ε) : List κ :=
  ((es.map entryKey).filter (fun k => k ∉ l.map key)).eraseDups

/-- Writing an entry gives the element the entry's key. -/
def Keyed : Prop :=
  ∀ o e, (∀ a, o = some a → key a = entryKey e) → key (write o e) = entryKey e

variable {key entryKey write}

@[simp] theorem upsertAll_nil (l : List α) : upsertAll key entryKey write l [] = l := rfl

@[simp] theorem upsertAll_cons (l : List α) (e : ε) (es : List ε) :
    upsertAll key entryKey write l (e :: es) =
      upsertAll key entryKey write (upsert key entryKey write e l) es := rfl

theorem mem_of_lookup {k : κ} {l : List α} {a : α} (h : lookup key k l = some a) : a ∈ l :=
  List.mem_of_find?_eq_some h

theorem lookup_cons (k : κ) (a : α) (l : List α) :
    lookup key k (a :: l) = if key a = k then some a else lookup key k l := by
  by_cases h : key a = k <;> simp [lookup, h]

theorem lookup_upsert (keyed : Keyed key entryKey write) (e : ε) (l : List α) (k : κ) :
    lookup key k (upsert key entryKey write e l) =
      if entryKey e = k then some (write (lookup key k l) e) else lookup key k l := by
  induction l with
  | nil =>
    have hk := keyed none e (by simp)
    simp [upsert, hk, lookup]
  | cons a l ih =>
    by_cases ha : key a = entryKey e
    · have hk := keyed (some a) e (by simp [ha])
      simp only [upsert, if_pos ha, lookup_cons]
      by_cases he : entryKey e = k <;> simp [he, hk, ha]
    · simp only [upsert, if_neg ha, lookup_cons, ih]
      by_cases he : entryKey e = k
      · have hk : ¬ key a = k := fun h => ha (h.trans he.symm)
        simp [he, hk]
      · simp [he]

/-- The element of a key depends on that key's entries alone. -/
theorem lookup_upsertAll (keyed : Keyed key entryKey write) (l : List α) (es : List ε) (k : κ) :
    lookup key k (upsertAll key entryKey write l es) =
      amend write (lookup key k l) (entriesOf entryKey k es) := by
  induction es generalizing l with
  | nil => rfl
  | cons e es ih =>
    rw [upsertAll_cons, ih, lookup_upsert keyed]
    by_cases he : entryKey e = k <;> simp [entriesOf, amend, he]

theorem amend_some (a : α) (es : List ε) :
    amend write (some a) es = some (es.foldl (fun a e => write (some a) e) a) := by
  induction es generalizing a with
  | nil => rfl
  | cons e es ih => exact ih (write (some a) e)

theorem amend_concat (o : Option α) (es : List ε) (e : ε) :
    amend write o (es ++ [e]) = some (write (amend write o es) e) := by
  simp [amend]

theorem exists_amend_eq_some (write : Option α → ε → α) (o : Option α) {es : List ε} (h : es ≠ []) :
    ∃ a, amend write o es = some a := by
  rw [← List.dropLast_append_getLast h, amend_concat]
  exact ⟨_, rfl⟩

/-- A property that every write establishes or keeps holds of all elements. -/
theorem forall_mem_upsertAll {P : α → Prop} {es : List ε}
    (new : ∀ e ∈ es, P (write none e))
    (kept : ∀ a, ∀ e ∈ es, key a = entryKey e → P a → P (write (some a) e)) {l : List α}
    (hl : ∀ a ∈ l, P a) : ∀ x ∈ upsertAll key entryKey write l es, P x := by
  have step (e) (he : e ∈ es) (l : List α) (hl : ∀ a ∈ l, P a) :
      ∀ x ∈ upsert key entryKey write e l, P x := by
    induction l with
    | nil => simpa [upsert] using new e he
    | cons a l ih =>
      simp only [List.forall_mem_cons] at hl
      by_cases ha : key a = entryKey e
      · simpa [upsert, ha] using And.intro (kept a e he ha hl.1) hl.2
      · simpa [upsert, ha] using And.intro hl.1 (ih hl.2)
  induction es generalizing l with
  | nil => exact hl
  | cons e es ih =>
    exact ih (fun e' h => new e' (List.mem_cons_of_mem e h))
      (fun a e' h => kept a e' (List.mem_cons_of_mem e h)) (step e List.mem_cons_self l hl)
      (fun e' h => step e' (List.mem_cons_of_mem e h))

/-- What writes leave alone is kept in place, and new elements are appended. -/
theorem map_upsertAll {β : Type*} {attr : α → β} {x : β} (new : ∀ e, attr (write none e) = x)
    (kept : ∀ a e, attr (write (some a) e) = attr a) (l : List α) (es : List ε) :
    ∃ k, (upsertAll key entryKey write l es).map attr = l.map attr ++ List.replicate k x := by
  have step (l : List α) (e : ε) :
      ∃ k, (upsert key entryKey write e l).map attr = l.map attr ++ List.replicate k x := by
    induction l with
    | nil => exact ⟨1, by simp [upsert, new]⟩
    | cons a l ih =>
      obtain ⟨k, hk⟩ := ih
      by_cases ha : key a = entryKey e
      · exact ⟨0, by simp [upsert, ha, kept]⟩
      · exact ⟨k, by simp [upsert, ha, hk]⟩
  induction es generalizing l with
  | nil => exact ⟨0, by simp⟩
  | cons e es ih =>
    obtain ⟨k, hk⟩ := step l e
    obtain ⟨m, hm⟩ := ih (upsert key entryKey write e l)
    exact ⟨k + m, by rw [upsertAll_cons, hm, hk, List.append_assoc, ← List.replicate_add]⟩

/-- The head takes the entries of its key and leaves the others to the rest. -/
theorem upsertAll_head (keyed : Keyed key entryKey write) (a : α) (l : List α) (es : List ε) :
    upsertAll key entryKey write (a :: l) es =
      (entriesOf entryKey (key a) es).foldl (fun a e => write (some a) e) a ::
        upsertAll key entryKey write l (es.filter (fun e => entryKey e ≠ key a)) := by
  induction es generalizing a l with
  | nil => rfl
  | cons e es ih =>
    by_cases he : entryKey e = key a
    · have hk : key (write (some a) e) = key a := (keyed (some a) e (by simp [he])).trans he
      simp only [upsertAll_cons, upsert, if_pos he.symm, ih, hk]
      simp [entriesOf, he]
    · have ha : ¬ key a = entryKey e := fun h => he h.symm
      simp only [upsertAll_cons, upsert, if_neg ha, ih]
      simp [entriesOf, he]

theorem key_or_mem_of_mem_upsert (keyed : Keyed key entryKey write) {e : ε} {l : List α} {x : α}
    (h : x ∈ upsert key entryKey write e l) : key x = entryKey e ∨ x ∈ l := by
  induction l with
  | nil =>
    obtain rfl : x = write none e := by simpa [upsert] using h
    exact Or.inl (keyed none e (by simp))
  | cons a l ih =>
    by_cases ha : key a = entryKey e
    · simp only [upsert, if_pos ha, List.mem_cons] at h
      rcases h with rfl | h
      · exact Or.inl (keyed (some a) e (by simp [ha]))
      · exact Or.inr (List.mem_cons_of_mem a h)
    · simp only [upsert, if_neg ha, List.mem_cons] at h
      rcases h with rfl | h
      · exact Or.inr List.mem_cons_self
      · exact (ih h).imp_right (List.mem_cons_of_mem a)

theorem nodup_upsert (keyed : Keyed key entryKey write) (e : ε) {l : List α}
    (h : (l.map key).Nodup) : ((upsert key entryKey write e l).map key).Nodup := by
  induction l with
  | nil => simp [upsert]
  | cons a l ih =>
    simp only [List.map_cons, List.nodup_cons, List.mem_map, not_exists, not_and] at h
    by_cases ha : key a = entryKey e
    · have hk := keyed (some a) e (by simp [ha])
      simpa [upsert, ha, hk] using h
    · simp only [upsert, if_neg ha, List.map_cons, List.nodup_cons, List.mem_map, not_exists,
        not_and]
      refine ⟨fun x hx he => ?_, ih h.2⟩
      rcases key_or_mem_of_mem_upsert keyed hx with hk | hx
      · exact ha (he.symm.trans hk)
      · exact h.1 x hx he

theorem nodup_upsertAll (keyed : Keyed key entryKey write) (es : List ε) {l : List α}
    (h : (l.map key).Nodup) : ((upsertAll key entryKey write l es).map key).Nodup := by
  induction es generalizing l with
  | nil => exact h
  | cons e es ih => exact ih (nodup_upsert keyed e h)

/-- With distinct keys the elements of a key are the one that is looked up. -/
theorem filter_key_eq_lookup {l : List α} (h : (l.map key).Nodup) (k : κ) :
    l.filter (fun a => key a = k) = (lookup key k l).toList := by
  induction l with
  | nil => rfl
  | cons a l ih =>
    simp only [List.map_cons, List.nodup_cons, List.mem_map, not_exists, not_and] at h
    by_cases ha : key a = k
    · have none : l.filter (fun b => key b = k) = [] := by
        rw [List.filter_eq_nil_iff]
        intro b hb
        simpa using fun hk => h.1 b hb (hk.trans ha.symm)
      simp [lookup_cons, ha, none]
    · simp [lookup_cons, ha, ih h.2]

theorem lookup_eq_some_of_mem {l : List α} (h : (l.map key).Nodup) {a : α} (mem : a ∈ l) :
    lookup key (key a) l = some a := by
  have found : a ∈ l.filter (fun b => key b = key a) := by simp [mem]
  rw [filter_key_eq_lookup h] at found
  exact Option.mem_toList.mp found

/-- The order of elements with distinct keys plays no part. -/
theorem lookup_perm {l l' : List α} (h : (l.map key).Nodup) (perm : l'.Perm l) (k : κ) :
    lookup key k l' = lookup key k l := by
  have h' : (l'.map key).Nodup := (perm.map key).nodup_iff.mpr h
  have same : (lookup key k l').toList.Perm (lookup key k l).toList := by
    rw [← filter_key_eq_lookup h', ← filter_key_eq_lookup h]
    exact perm.filter _
  cases found : lookup key k l with
  | none =>
    rw [found] at same
    exact Option.toList_eq_nil_iff.mp same.eq_nil
  | some a =>
    rw [found] at same
    exact Option.mem_toList.mp (same.mem_iff.mpr List.mem_cons_self)

/-- Each element is what its key's entries made of the one that was there. -/
theorem amend_of_mem_upsertAll (keyed : Keyed key entryKey write) {l : List α} {es : List ε}
    (h : (l.map key).Nodup) {x : α} (mem : x ∈ upsertAll key entryKey write l es) :
    amend write (lookup key (key x) l) (entriesOf entryKey (key x) es) = some x := by
  rw [← lookup_upsertAll keyed]
  exact lookup_eq_some_of_mem (nodup_upsertAll keyed es h) mem

theorem map_key_upsert (keyed : Keyed key entryKey write) (e : ε) (l : List α) :
    (upsert key entryKey write e l).map key =
      if entryKey e ∈ l.map key then l.map key else l.map key ++ [entryKey e] := by
  induction l with
  | nil => simp [upsert, keyed none e (by simp)]
  | cons a l ih =>
    by_cases ha : key a = entryKey e
    · simp [upsert, ha, keyed (some a) e (by simp [ha])]
    · have other : entryKey e ≠ key a := fun h => ha h.symm
      simp only [upsert, if_neg ha, List.map_cons, ih, List.mem_cons, other, false_or]
      split <;> rfl

/-- Keys stay in their places, and new ones follow as they come. -/
theorem map_key_upsertAll (keyed : Keyed key entryKey write) (l : List α) (es : List ε) :
    (upsertAll key entryKey write l es).map key = l.map key ++ newKeys key entryKey l es := by
  induction es generalizing l with
  | nil => simp [newKeys]
  | cons e es ih =>
    rw [upsertAll_cons, ih, newKeys, map_key_upsert keyed, newKeys, List.map_cons]
    by_cases known : entryKey e ∈ l.map key
    · rw [if_pos known, List.filter_cons_of_neg (by simpa using known)]
    · rw [if_neg known, List.filter_cons_of_pos (by simpa using known), List.eraseDups_cons,
        List.append_assoc, List.singleton_append, List.filter_filter]
      congr 3
      apply List.filter_congr
      intro k _
      by_cases hk : k = entryKey e <;> simp [hk]

theorem key_of_mem_entriesOf {k : κ} {es : List ε} {e : ε} (h : e ∈ entriesOf entryKey k es) :
    entryKey e = k := by
  simpa using (List.mem_filter.mp h).2

/-- Entries of one key leave the entries of the others. -/
theorem entriesOf_filter_of_ne {k k' : κ} (h : k ≠ k') (es : List ε) :
    entriesOf entryKey k (es.filter (fun e => entryKey e ≠ k')) = entriesOf entryKey k es := by
  rw [entriesOf, entriesOf, List.filter_filter]
  apply List.filter_congr
  intro e _
  by_cases he : entryKey e = k
  · simp [he, h]
  · simp [he]

theorem entriesOf_filter_self (k : κ) (es : List ε) :
    entriesOf entryKey k (es.filter (fun e => entryKey e ≠ k)) = [] := by
  simp [entriesOf, List.filter_filter]

omit [DecidableEq κ] in
theorem key_foldl_write (keyed : Keyed key entryKey write) {k : κ} {es : List ε}
    (own : ∀ e ∈ es, entryKey e = k) {a : α} (ha : key a = k) :
    key (es.foldl (fun a e => write (some a) e) a) = k := by
  induction es generalizing a with
  | nil => exact ha
  | cons e es ih =>
    simp only [List.forall_mem_cons] at own
    exact ih own.2 ((keyed (some a) e (by simp [ha, own.1])).trans own.1)

theorem key_foldl_entriesOf (keyed : Keyed key entryKey write) (a : α) (es : List ε) :
    key ((entriesOf entryKey (key a) es).foldl (fun a e => write (some a) e) a) = key a :=
  key_foldl_write keyed (fun _ => key_of_mem_entriesOf) rfl

/-- With distinct keys every element takes the entries of its key. -/
theorem upsertAll_eq_append (keyed : Keyed key entryKey write) {l : List α}
    (h : (l.map key).Nodup) (es : List ε) :
    ∃ new, upsertAll key entryKey write l es =
        l.map (fun a => (entriesOf entryKey (key a) es).foldl (fun a e => write (some a) e) a) ++
          new ∧ new.map key = newKeys key entryKey l es := by
  have split : ∃ new, upsertAll key entryKey write l es =
      l.map (fun a => (entriesOf entryKey (key a) es).foldl (fun a e => write (some a) e) a) ++
        new := by
    induction l generalizing es with
    | nil => exact ⟨_, rfl⟩
    | cons a l ih =>
      simp only [List.map_cons, List.nodup_cons, List.mem_map, not_exists, not_and] at h
      obtain ⟨new, hnew⟩ := ih h.2 (es.filter (fun e => entryKey e ≠ key a))
      refine ⟨new, ?_⟩
      rw [upsertAll_head keyed, hnew, List.map_cons, List.cons_append]
      congr 2
      exact List.map_congr_left fun b hb => by rw [entriesOf_filter_of_ne (h.1 b hb)]
  obtain ⟨new, hnew⟩ := split
  refine ⟨new, hnew, ?_⟩
  have keys := map_key_upsertAll keyed l es
  rw [hnew, List.map_append, List.map_map] at keys
  have same : key ∘ (fun a => (entriesOf entryKey (key a) es).foldl
      (fun a e => write (some a) e) a) = key := funext fun a => key_foldl_entriesOf keyed a es
  rw [same] at keys
  exact List.append_cancel_left keys

theorem getElem?_upsertAll (keyed : Keyed key entryKey write) {l : List α}
    (h : (l.map key).Nodup) (es : List ε) {i : Nat} {a : α} (ha : l[i]? = some a) :
    (upsertAll key entryKey write l es)[i]? =
      some ((entriesOf entryKey (key a) es).foldl (fun a e => write (some a) e) a) := by
  obtain ⟨new, hnew, -⟩ := upsertAll_eq_append keyed h es
  obtain ⟨bound, -⟩ := List.getElem?_eq_some_iff.mp ha
  rw [hnew, List.getElem?_append_left (by simpa using bound), List.getElem?_map, ha,
    Option.map_some]

/-- Where a write leaves what is there, the list only grows. -/
theorem upsertAll_of_keeps (keyed : Keyed key entryKey write)
    (keeps : ∀ a e, write (some a) e = a) (l : List α) (es : List ε) :
    ∃ new, upsertAll key entryKey write l es = l ++ new ∧
      new.map key = newKeys key entryKey l es := by
  have step (l : List α) (e : ε) : ∃ new, upsert key entryKey write e l = l ++ new := by
    induction l with
    | nil => exact ⟨_, rfl⟩
    | cons a l ih =>
      obtain ⟨new, hnew⟩ := ih
      by_cases ha : key a = entryKey e
      · exact ⟨[], by simp [upsert, ha, keeps]⟩
      · exact ⟨new, by simp [upsert, ha, hnew]⟩
  have split : ∃ new, upsertAll key entryKey write l es = l ++ new := by
    induction es generalizing l with
    | nil => exact ⟨[], (List.append_nil l).symm⟩
    | cons e es ih =>
      obtain ⟨first, hfirst⟩ := step l e
      obtain ⟨rest, hrest⟩ := ih (l ++ first)
      exact ⟨first ++ rest, by rw [upsertAll_cons, hfirst, hrest, List.append_assoc]⟩
  obtain ⟨new, hnew⟩ := split
  have keys := map_key_upsertAll keyed l es
  rw [hnew, List.map_append] at keys
  exact ⟨new, hnew, List.append_cancel_left keys⟩

theorem mem_newKeys {l : List α} {es : List ε} {k : κ} :
    k ∈ newKeys key entryKey l es ↔ (∃ e ∈ es, entryKey e = k) ∧ ∀ a ∈ l, key a ≠ k := by
  simp [newKeys, List.mem_eraseDups]

theorem lookup_isSome_iff {k : κ} {l : List α} :
    (lookup key k l).isSome ↔ ∃ a ∈ l, key a = k := by
  simp [lookup, List.find?_isSome]

theorem entriesOf_eq_nil_iff {k : κ} {es : List ε} :
    entriesOf entryKey k es = [] ↔ ∀ e ∈ es, entryKey e ≠ k := by
  simp [entriesOf, List.filter_eq_nil_iff]

/-- Every element is a new key's, or an old one: the first of its key with the
entries of that key written to it, or a later one as it was. -/
theorem mem_upsertAll_iff (keyed : Keyed key entryKey write) {l : List α} {es : List ε} {x : α} :
    x ∈ upsertAll key entryKey write l es ↔
      (∃ k ∈ newKeys key entryKey l es, amend write none (entriesOf entryKey k es) = some x) ∨
        ∃ front a back, l = front ++ a :: back ∧
          x = if ∃ b ∈ front, key b = key a then a
            else (entriesOf entryKey (key a) es).foldl (fun a e => write (some a) e) a := by
  induction l generalizing es with
  | nil =>
    have keys := map_key_upsertAll keyed ([] : List α) es
    have made {y} (hy : y ∈ upsertAll key entryKey write [] es) :
        amend write none (entriesOf entryKey (key y) es) = some y :=
      amend_of_mem_upsertAll (l := []) keyed List.nodup_nil hy
    rw [List.map_nil, List.nil_append] at keys
    simp only [← keys, List.mem_map, List.nil_eq, List.append_eq_nil_iff, reduceCtorEq, and_false,
      false_and, exists_false, or_false]
    constructor
    · exact fun h => ⟨key x, ⟨x, h, rfl⟩, made h⟩
    · rintro ⟨k, ⟨y, hy, rfl⟩, hx⟩
      rw [made hy] at hx
      exact Option.some.inj hx ▸ hy
  | cons a l ih =>
    have new {k} : k ∈ newKeys key entryKey l (es.filter (fun e => entryKey e ≠ key a)) ↔
        k ∈ newKeys key entryKey (a :: l) es := by
      simp only [mem_newKeys, List.mem_filter, List.forall_mem_cons, decide_eq_true_eq]
      constructor
      · rintro ⟨⟨e, ⟨he, other⟩, rfl⟩, later⟩
        exact ⟨⟨e, he, rfl⟩, other.symm, later⟩
      · rintro ⟨⟨e, he, rfl⟩, other, later⟩
        exact ⟨⟨e, ⟨he, other.symm⟩, rfl⟩, later⟩
    have made {k} (hk : k ∈ newKeys key entryKey (a :: l) es) :
        entriesOf entryKey k (es.filter (fun e => entryKey e ≠ key a)) =
          entriesOf entryKey k es :=
      entriesOf_filter_of_ne ((mem_newKeys.mp hk).2 a List.mem_cons_self).symm es
    have kept (front : List α) (b : α) :
        (if ∃ c ∈ front, key c = key b then b else
          (entriesOf entryKey (key b) (es.filter (fun e => entryKey e ≠ key a))).foldl
            (fun a e => write (some a) e) b) =
        if ∃ c ∈ a :: front, key c = key b then b else
          (entriesOf entryKey (key b) es).foldl (fun a e => write (some a) e) b := by
      by_cases hab : key a = key b
      · rw [hab, entriesOf_filter_self]
        simp [hab]
      · rw [entriesOf_filter_of_ne (Ne.symm hab)]
        simp [hab]
    rw [upsertAll_head keyed, List.mem_cons, ih]
    constructor
    · rintro (rfl | ⟨k, hk, hx⟩ | ⟨front, b, back, rfl, hx⟩)
      · exact Or.inr ⟨[], a, l, rfl, by simp⟩
      · have hk := new.mp hk
        exact Or.inl ⟨k, hk, made hk ▸ hx⟩
      · exact Or.inr ⟨a :: front, b, back, rfl, hx.trans (kept front b)⟩
    · rintro (⟨k, hk, hx⟩ | ⟨front, b, back, split, hx⟩)
      · exact Or.inr (Or.inl ⟨k, new.mpr hk, (made hk).symm ▸ hx⟩)
      · cases front with
        | nil =>
          obtain ⟨rfl, rfl⟩ := List.cons.inj split
          exact Or.inl (by simpa using hx)
        | cons c front =>
          obtain ⟨rfl, rfl⟩ := List.cons.inj split
          exact Or.inr (Or.inr ⟨front, b, back, rfl, hx.trans (kept front b).symm⟩)

theorem lookup_first {front : List α} {a : α} (first : ¬ ∃ b ∈ front, key b = key a)
    (back : List α) : lookup key (key a) (front ++ a :: back) = some a := by
  have none : front.find? (fun b => key b = key a) = none := by
    rw [List.find?_eq_none]
    exact fun b hb same => first ⟨b, hb, by simpa using same⟩
  simp [lookup, List.find?_append, none]

/-- Every element is new, untouched, or the first of its key with the entries
of that key written to it. -/
theorem mem_upsertAll (keyed : Keyed key entryKey write) {l : List α} {es : List ε} {x : α}
    (h : x ∈ upsertAll key entryKey write l es) :
    (∃ fs, amend write none fs = some x) ∨ x ∈ l ∨
      ∃ a, lookup key (key a) l = some a ∧
        x = (entriesOf entryKey (key a) es).foldl (fun a e => write (some a) e) a := by
  rcases (mem_upsertAll_iff keyed).mp h with ⟨k, -, made⟩ | ⟨front, a, back, rfl, hx⟩
  · exact Or.inl ⟨_, made⟩
  · split at hx
    · exact Or.inr (Or.inl (hx ▸ List.mem_append_right front List.mem_cons_self))
    · rename_i first
      exact Or.inr (Or.inr ⟨a, lookup_first first back, hx⟩)

/-- Entries change nothing exactly if each key has an element and its entries
leave that as it is. -/
theorem upsertAll_eq_self_iff (keyed : Keyed key entryKey write) {l : List α} {es : List ε} :
    upsertAll key entryKey write l es = l ↔
      ∀ e ∈ es, ∃ a, lookup key (entryKey e) l = some a ∧
        (entriesOf entryKey (entryKey e) es).foldl (fun a e => write (some a) e) a = a := by
  constructor
  · intro same e he
    have found := lookup_upsertAll keyed l es (entryKey e)
    rw [same] at found
    have mem : e ∈ entriesOf entryKey (entryKey e) es := by simp [entriesOf, he]
    obtain ⟨a, ha⟩ : ∃ a, lookup key (entryKey e) l = some a :=
      found ▸ exists_amend_eq_some _ _ (List.ne_nil_of_mem mem)
    refine ⟨a, ha, ?_⟩
    rw [ha, amend_some] at found
    exact (Option.some.inj found).symm
  · intro h
    induction l generalizing es with
    | nil =>
      cases es with
      | nil => rfl
      | cons e es =>
        obtain ⟨a, ha, -⟩ := h e List.mem_cons_self
        cases ha
    | cons a l ih =>
      rw [upsertAll_head keyed, ih]
      · congr 1
        by_cases reported : entriesOf entryKey (key a) es = []
        · rw [reported]
          rfl
        · obtain ⟨e, he⟩ := List.exists_mem_of_ne_nil _ reported
          have own := key_of_mem_entriesOf he
          obtain ⟨b, hb, fixed⟩ := h e (List.mem_filter.mp he).1
          rw [own] at hb fixed
          obtain rfl : a = b := by simpa [lookup_cons] using hb
          exact fixed
      · intro e he
        obtain ⟨mem, other⟩ := List.mem_filter.mp he
        have other : entryKey e ≠ key a := by simpa using other
        obtain ⟨b, hb, fixed⟩ := h e mem
        rw [lookup_cons, if_neg (Ne.symm other)] at hb
        exact ⟨b, hb, by rw [entriesOf_filter_of_ne other, fixed]⟩

theorem upsertAll_idem_of_keeps (keyed : Keyed key entryKey write)
    (keeps : ∀ a e, write (some a) e = a) (l : List α) (es : List ε) :
    upsertAll key entryKey write (upsertAll key entryKey write l es) es =
      upsertAll key entryKey write l es := by
  rw [upsertAll_eq_self_iff keyed]
  intro e he
  have mem : e ∈ entriesOf entryKey (entryKey e) es := by simp [entriesOf, he]
  obtain ⟨a, ha⟩ := exists_amend_eq_some write (lookup key (entryKey e) l)
    (List.ne_nil_of_mem mem)
  refine ⟨a, by rw [lookup_upsertAll keyed, ha], ?_⟩
  simp only [keeps, List.foldl_fixed]

end KeyedList
