/-!
# Dropping repetitions

Of the items of a list with one key the first is kept.  The keys that remain are the keys of the list,
each once, in the order of their first places.  Gathering the items under these keys loses none.
-/

namespace Scaffold

variable {Item Key : Type} [BEq Key] (key : Item → Key)

/-- The items of a list, of those with one key the first. -/
def firstsBy (items : List Item) : List Item :=
  items.eraseDupsBy fun later earlier => key later == key earlier

@[simp] theorem firstsBy_nil : firstsBy key [] = [] := rfl

/-- The first item is kept, and no other one with its key. -/
theorem firstsBy_cons (first : Item) (rest : List Item) :
    firstsBy key (first :: rest) =
      first :: firstsBy key (rest.filter fun item => !(key item == key first)) := by
  simp [firstsBy, List.eraseDupsBy_cons]

/-- What holds of a list if it holds of the later items with other keys holds of every list. -/
theorem firstsBy_induction {holds : List Item → Prop} (nil : holds [])
    (cons : ∀ first rest, holds (rest.filter fun item => !(key item == key first)) →
      holds (first :: rest)) (items : List Item) : holds items := by
  induction length : items.length using Nat.strongRecOn generalizing items with
  | ind count inductionHypothesis =>
      cases items with
      | nil => exact nil
      | cons first rest =>
          refine cons first rest (inductionHypothesis _ ?_ _ rfl)
          rw [← length]
          exact Nat.lt_succ_of_le (List.length_filter_le _ _)

variable {key}

/-- What is kept was there. -/
theorem mem_of_mem_firstsBy {item : Item} {items : List Item} (member : item ∈ firstsBy key items) :
    item ∈ items := by
  induction items using firstsBy_induction key with
  | nil => exact member
  | cons first rest inductionHypothesis =>
      rw [firstsBy_cons] at member
      rcases List.mem_cons.mp member with rfl | later
      · exact List.mem_cons_self
      · exact List.mem_cons_of_mem _ (List.mem_filter.mp (inductionHypothesis later)).1

/-- Dropping repetitions by a key of an image may be done before or after taking the image. -/
theorem map_firstsBy {Image : Type} {key : Image → Key} (image : Item → Image) (items : List Item) :
    (firstsBy (key ∘ image) items).map image = firstsBy key (items.map image) := by
  induction items using firstsBy_induction (key ∘ image) with
  | nil => rfl
  | cons first rest inductionHypothesis =>
      rw [firstsBy_cons, List.map_cons, List.map_cons, firstsBy_cons, List.filter_map]
      exact congrArg (image first :: ·) inductionHypothesis

variable [LawfulBEq Key]

/-- Dropping repetitions by key loses no key. -/
theorem mem_map_firstsBy {items : List Item} {wanted : Key} :
    wanted ∈ (firstsBy key items).map key ↔ wanted ∈ items.map key := by
  induction items using firstsBy_induction key with
  | nil => simp
  | cons first rest inductionHypothesis =>
      rw [firstsBy_cons, List.map_cons, List.map_cons, List.mem_cons, List.mem_cons, inductionHypothesis]
      by_cases same : wanted = key first
      · simp [same]
      · simp only [same, false_or, List.mem_map, List.mem_filter]
        constructor
        · rintro ⟨item, ⟨member, _⟩, named⟩
          exact ⟨item, member, named⟩
        · rintro ⟨item, member, rfl⟩
          exact ⟨item, ⟨member, by simpa using same⟩, rfl⟩

/-- After dropping repetitions by key no key is repeated. -/
theorem nodup_map_firstsBy (items : List Item) : ((firstsBy key items).map key).Nodup := by
  induction items using firstsBy_induction key with
  | nil => simp
  | cons first rest inductionHypothesis =>
      rw [firstsBy_cons, List.map_cons]
      refine List.nodup_cons.mpr ⟨?_, inductionHypothesis⟩
      rw [mem_map_firstsBy]
      simp

/-- Of items with one key the first is kept. -/
theorem firstsBy_eq_head? {items : List Item} {only : Key} (same : ∀ item ∈ items, key item = only) :
    firstsBy key items = items.head?.toList := by
  cases items with
  | nil => rfl
  | cons first rest =>
      have others : rest.filter (fun item => !(key item == key first)) = [] := by
        rw [List.filter_eq_nil_iff]
        intro item member
        simp [same first (by simp), same item (List.mem_cons_of_mem _ member)]
      rw [firstsBy_cons, others]
      rfl

/-- Dropping repetitions leaves none. -/
theorem nodup_eraseDups (items : List Key) : items.eraseDups.Nodup := by
  have distinct : ((firstsBy id items).map id).Nodup := nodup_map_firstsBy items
  simpa [firstsBy, List.eraseDups] using distinct

/-- A list holds the items of another, each once, in the order of their first places. -/
structure IsFirsts (items kept : List Key) : Prop where
  distinct : kept.Nodup
  complete : ∀ item, item ∈ kept ↔ item ∈ items
  ordered : kept.Pairwise fun earlier later => items.idxOf earlier < items.idxOf later

/-- The first places of items that are kept are in the same order before the others are dropped. -/
theorem idxOf_lt_idxOf_of_filter {keep : Key → Bool} {items : List Key} {first second : Key}
    (keepsFirst : keep first = true) (keepsSecond : keep second = true)
    (less : (items.filter keep).idxOf first < (items.filter keep).idxOf second) :
    items.idxOf first < items.idxOf second := by
  induction items with
  | nil => exact less
  | cons item items inductionHypothesis =>
      cases kept : keep item with
      | true =>
          rw [List.filter_cons_of_pos kept, List.idxOf_cons, List.idxOf_cons] at less
          rw [List.idxOf_cons, List.idxOf_cons]
          cases isFirst : item == first <;> cases isSecond : item == second <;>
            simp_all
      | false =>
          rw [List.filter_cons_of_neg (by simp [kept])] at less
          have notFirst : (item == first) = false := by
            rw [beq_eq_false_iff_ne]
            rintro rfl
            simp [kept] at keepsFirst
          have notSecond : (item == second) = false := by
            rw [beq_eq_false_iff_ne]
            rintro rfl
            simp [kept] at keepsSecond
          rw [List.idxOf_cons, List.idxOf_cons, notFirst, notSecond]
          exact Nat.succ_lt_succ (inductionHypothesis less)

/-- Dropping repetitions keeps the first places. -/
theorem isFirsts_eraseDups (items : List Key) : IsFirsts items items.eraseDups := by
  refine ⟨nodup_eraseDups items, fun item => List.mem_eraseDups, ?_⟩
  induction items using firstsBy_induction (id : Key → Key) with
  | nil => exact .nil
  | cons first rest inductionHypothesis =>
      have later : ∀ item ∈ (rest.filter fun item => !(item == first)).eraseDups,
          (!(item == first)) = true ∧ (first :: rest).idxOf item = rest.idxOf item + 1 := by
        intro item member
        have other := (List.mem_filter.mp (List.mem_eraseDups.mp member)).2
        have different : first ≠ item := fun same => by simp [same] at other
        exact ⟨other, by rw [List.idxOf_cons, beq_false_of_ne different, cond_false]⟩
      rw [List.eraseDups_cons]
      refine .cons (fun item member => ?_) (inductionHypothesis.imp_of_mem ?_)
      · rw [List.idxOf_cons_self, (later item member).2]
        exact Nat.succ_pos _
      · intro first second firstMember secondMember less
        rw [(later first firstMember).2, (later second secondMember).2]
        exact Nat.succ_lt_succ
          (idxOf_lt_idxOf_of_filter (later first firstMember).1 (later second secondMember).1 less)

/-- An item at the end of a list is kept if it is new there. -/
theorem eraseDups_concat (items : List Key) (last : Key) :
    (items ++ [last]).eraseDups = if last ∈ items then items.eraseDups else items.eraseDups ++ [last] := by
  rw [List.eraseDups_append, List.removeAll]
  by_cases member : last ∈ items <;> simp [member, List.eraseDups_cons]

/-- Repetitions may be dropped before or after items are left out. -/
theorem eraseDups_filter (keep : Key → Bool) (items : List Key) :
    (items.filter keep).eraseDups = items.eraseDups.filter keep := by
  induction items using firstsBy_induction (id : Key → Key) with
  | nil => rfl
  | cons first rest inductionHypothesis =>
      rw [List.eraseDups_cons]
      cases kept : keep first with
      | true =>
          have apart : (rest.filter keep).filter (fun item => !item == first)
              = (rest.filter fun item => !item == first).filter keep := by
            simp only [List.filter_filter, Bool.and_comm]
          rw [List.filter_cons_of_pos kept, List.filter_cons_of_pos kept, List.eraseDups_cons, apart]
          exact congrArg (first :: ·) inductionHypothesis
      | false =>
          have apart : rest.filter keep = (rest.filter fun item => !item == first).filter keep := by
            rw [List.filter_filter]
            refine List.filter_congr fun item _ => ?_
            by_cases same : item = first
            · simp [same, kept]
            · simp [same]
          rw [List.filter_cons_of_neg (by simp [kept]), List.filter_cons_of_neg (by simp [kept]), apart]
          exact inductionHypothesis

/-- The items of a list, gathered under their keys, are the same items. -/
theorem perm_flatMap_filter {keys : List Key} {items : List Item} (distinct : keys.Nodup)
    (covered : ∀ item ∈ items, key item ∈ keys) :
    (keys.flatMap fun wanted => items.filter fun item => key item == wanted).Perm items := by
  induction keys generalizing items with
  | nil =>
      obtain rfl : items = [] := List.eq_nil_iff_forall_not_mem.mpr fun item member => by
        simpa using covered item member
      exact .nil
  | cons first rest inductionHypothesis =>
      obtain ⟨fresh, others⟩ := List.nodup_cons.mp distinct
      -- The later keys are not the first one, so they gather the same from what the first leaves over.
      have apart : (rest.flatMap fun wanted => items.filter fun item => key item == wanted)
          = rest.flatMap fun wanted =>
            (items.filter fun item => !(key item == first)).filter fun item => key item == wanted := by
        rw [List.flatMap_def, List.flatMap_def]
        congr 1
        refine List.map_congr_left fun wanted member => ?_
        rw [List.filter_filter]
        refine List.filter_congr fun item _ => ?_
        by_cases same : key item = wanted
        · have differ : wanted ≠ first := fun equal => fresh (equal ▸ member)
          simp [same, differ]
        · simp [same]
      have remaining : (rest.flatMap fun wanted => items.filter fun item => key item == wanted).Perm
          (items.filter fun item => !(key item == first)) := by
        rw [apart]
        refine inductionHypothesis others fun item member => ?_
        obtain ⟨inside, differs⟩ := List.mem_filter.mp member
        exact (List.mem_cons.mp (covered item inside)).resolve_left (by simpa using differs)
      rw [List.flatMap_cons]
      exact (remaining.append_left _).trans (List.filter_append_perm _ items)

end Scaffold
