import RustDesk.Api.LegacySync

/-!
# What a sync leaves of the tags

Reference: `rustdesk-api/service/tag.go` (`UpdateTags`).

Of the tags of a user, in whatever collection, the first one of each posted name stays and takes the posted
color. What is left of the posted ones is new.
-/

namespace RustDesk.Api

/-- What the client sees of a tag. -/
def nameColor (t : ℕ × Tag) : String × ℕ := (t.2.name, t.2.color)

/-- The tags that the loop keeps. -/
def keptTags : List (ℕ × Tag) → List (String × ℕ) → List (ℕ × Tag)
  | [], _ => []
  | t :: ts, left =>
    match left.lookup t.2.name with
    | none => keptTags ts left
    | some color =>
      (t.1, { t.2 with color := color }) :: keptTags ts (left.filter fun e => e.1 ≠ t.2.name)

/-- What the loop leaves of the posted tags. -/
def leftTags : List (ℕ × Tag) → List (String × ℕ) → List (String × ℕ)
  | [], left => left
  | t :: ts, left => leftTags ts (left.filter fun e => e.1 ≠ t.2.name)

section Loop

variable {tbl : Table Tag} {userId : ℕ} {pre ts : List (ℕ × Tag)} {left : List (String × ℕ)} {t : ℕ × Tag}

theorem lookup_some_mem {e : String × ℕ} (hnodup : (left.map (·.1)).Nodup) :
    left.lookup e.1 = some e.2 ↔ e ∈ left := by
  induction left with
  | nil => simp
  | cons d left ih =>
    obtain ⟨hd, hleft⟩ := List.nodup_cons.mp hnodup
    rw [List.lookup_cons]
    by_cases hname : e.1 = d.1
    · rw [beq_iff_eq.mpr hname]
      have hne : e ∉ left := fun he => hd (List.mem_map.mpr ⟨e, he, hname⟩)
      rw [List.mem_cons, or_iff_left hne, Option.some.injEq]
      exact ⟨fun hcolor => Prod.ext hname hcolor.symm, fun he => he ▸ rfl⟩
    · rw [beq_eq_false_iff_ne.mpr hname, ih hleft, List.mem_cons]
      exact (or_iff_right fun he => hname (congrArg Prod.fst he)).symm

/-- Taking a name from the posted ones, whose names are different. -/
theorem perm_of_lookup {name : String} {color : ℕ} (hnodup : (left.map (·.1)).Nodup)
    (h : left.lookup name = some color) : ((name, color) :: left.filter fun e => e.1 ≠ name).Perm left := by
  have hmem : (name, color) ∈ left := (lookup_some_mem hnodup).mp h
  refine (List.perm_ext_iff_of_nodup ?_ (List.Nodup.of_map _ hnodup)).mpr fun e => ?_
  · refine List.nodup_cons.mpr ⟨?_, (List.Nodup.of_map _ hnodup).filter _⟩
    simp
  · rw [List.mem_cons, List.mem_filter, decide_eq_true_iff]
    constructor
    · rintro (rfl | he)
      · exact hmem
      · exact he.1
    · intro he
      by_cases hname : e.1 = name
      · exact .inl (List.inj_on_of_nodup_map hnodup he hmem hname)
      · exact .inr ⟨he, hname⟩

theorem leftTags_of_lookup_none (h : left.lookup t.2.name = none) : left.filter (fun e => e.1 ≠ t.2.name) = left := by
  refine List.filter_eq_self.mpr fun e he => decide_eq_true fun hname => ?_
  have hsome : (left.lookup t.2.name).isSome := List.lookup_isSome_iff.mpr ⟨e, he, beq_iff_eq.mpr hname.symm⟩
  simp [h] at hsome

/-- The tags that are kept and those that are left are the posted ones. -/
theorem keptTags_perm (hnodup : (left.map (·.1)).Nodup) :
    ((keptTags ts left).map nameColor ++ leftTags ts left).Perm left := by
  induction ts generalizing left with
  | nil => exact .refl _
  | cons t ts ih =>
    have hfilter : ((left.filter fun e => e.1 ≠ t.2.name).map (·.1)).Nodup :=
      hnodup.sublist (List.filter_sublist.map _)
    rw [keptTags, leftTags]
    cases hlookup : left.lookup t.2.name with
    | none =>
      rw [leftTags_of_lookup_none hlookup]
      exact ih hnodup
    | some color => exact ((ih hfilter).cons _).trans (perm_of_lookup hnodup hlookup)

/-- A tag that is kept is one that there was, but for its color. -/
theorem mem_keptTags (ht : t ∈ keptTags ts left) :
    ∃ t' ∈ ts, t'.1 = t.1 ∧ t = (t'.1, { t'.2 with color := t.2.color }) := by
  induction ts generalizing left with
  | nil => exact absurd ht List.not_mem_nil
  | cons t' ts ih =>
    rw [keptTags] at ht
    split at ht
    · obtain ⟨t'', hmem, hrest⟩ := ih ht
      exact ⟨t'', List.mem_cons_of_mem _ hmem, hrest⟩
    · rcases List.mem_cons.mp ht with rfl | ht
      · exact ⟨t', List.mem_cons_self, rfl, rfl⟩
      · obtain ⟨t'', hmem, hrest⟩ := ih ht
        exact ⟨t'', List.mem_cons_of_mem _ hmem, hrest⟩

/-- A turn of the loop at the first tag of a user that was not visited. -/
theorem select_visitTag (left : List (String × ℕ))
    (h : (tbl.select fun r => r.2.userId = userId) = pre ++ t :: ts) :
    ((visitTag (tbl, left) t).1.select fun r => r.2.userId = userId) =
      pre ++ (((left.lookup t.2.name).map fun color => (t.1, { t.2 with color := color })).toList ++ ts) := by
  have hsorted : (pre ++ t :: ts).Pairwise (·.1 < ·.1) := h ▸ tbl.sorted.filter _
  obtain ⟨-, htail, hpre⟩ := List.pairwise_append.mp hsorted
  have hbefore : ∀ r ∈ pre, r.1 ≠ t.1 := fun r hr => Nat.ne_of_lt (hpre r hr t List.mem_cons_self)
  have hafter : ∀ r ∈ ts, r.1 ≠ t.1 := fun r hr => Nat.ne_of_gt ((List.pairwise_cons.mp htail).1 r hr)
  have hmem : t ∈ tbl.select fun r => r.2.userId = userId := h ▸ by simp
  rw [Table.mem_select] at hmem
  unfold visitTag
  cases hlookup : left.lookup t.2.name with
  | none =>
    rw [Table.select_delete_filter, h, List.filter_append, List.filter_cons_of_neg (by simp),
      List.filter_eq_self.mpr (by simpa using hbefore), List.filter_eq_self.mpr (by simpa using hafter)]
    rfl
  | some color =>
    dsimp only
    split
    · rw [Table.select_update_map, h, List.map_append, List.map_cons]
      · have hkeep (l : List (ℕ × Tag)) (hl : ∀ r ∈ l, r.1 ≠ t.1) :
            l.map (Table.updateRow (fun r => r.1 = t.1) fun _ => { t.2 with color := color }) = l := by
          refine (List.map_congr_left fun r hr => ?_).trans (List.map_id l)
          rw [Table.updateRow, if_neg (by simpa using hl r hr), id]
        rw [hkeep pre hbefore, hkeep ts hafter, Table.updateRow, if_pos (decide_eq_true rfl)]
        rfl
      · intro r hr hid
        rw [Table.eq_of_id hr hmem.1 (of_decide_eq_true hid)]
    · next hsame =>
      rw [not_not] at hsame
      rw [h, hsame]
      rfl

/-- The turn changes nothing of another user. -/
theorem select_visitTag_of_ne (left : List (String × ℕ)) {q : ℕ × Tag → Bool}
    (ht : t ∈ tbl.select fun r => r.2.userId = userId) (hq : ∀ r, q r = true → r.2.userId ≠ userId) :
    (visitTag (tbl, left) t).1.select q = tbl.select q := by
  obtain ⟨hmem, huser⟩ := Table.mem_select.mp ht
  have hrow : ∀ r ∈ tbl.rows, decide (r.1 = t.1) = true → r = t := fun r hr hid =>
    Table.eq_of_id hr hmem (of_decide_eq_true hid)
  have hnot : ∀ r : ℕ × Tag, r.2.userId = userId → ¬ q r = true := fun r hr hqr => hq r hqr hr
  have huser := of_decide_eq_true huser
  unfold visitTag
  split
  · refine Table.select_delete fun r hr hid => ?_
    rw [hrow r hr hid]
    exact hnot t huser
  · dsimp only
    split
    · refine Table.select_update fun r hr hid => ?_
      rw [hrow r hr hid]
      exact ⟨hnot t huser, hnot _ huser⟩
    · rfl

theorem visitTag_snd (tbl : Table Tag) (left : List (String × ℕ)) (t : ℕ × Tag) :
    (visitTag (tbl, left) t).2 = left.filter fun e => e.1 ≠ t.2.name := by
  unfold visitTag
  split
  · next hnone => exact (leftTags_of_lookup_none hnone).symm
  · rfl

/-- The whole loop, over the tags that are not visited. -/
theorem foldl_visitTag (left : List (String × ℕ)) (h : (tbl.select fun r => r.2.userId = userId) = pre ++ ts) :
    ((ts.foldl visitTag (tbl, left)).1.select fun r => r.2.userId = userId) = pre ++ keptTags ts left ∧
      (ts.foldl visitTag (tbl, left)).2 = leftTags ts left ∧
      ∀ q, (∀ r, q r = true → r.2.userId ≠ userId) → (ts.foldl visitTag (tbl, left)).1.select q = tbl.select q := by
  induction ts generalizing tbl pre left with
  | nil => exact ⟨h, rfl, fun _ _ => rfl⟩
  | cons t ts ih =>
    have hstep := select_visitTag left h
    have hsnd := visitTag_snd tbl left t
    have hother := fun (q : ℕ × Tag → Bool) hq => select_visitTag_of_ne (q := q) left
      (show t ∈ tbl.select fun r => r.2.userId = userId from h ▸ by simp) hq
    rw [List.foldl_cons, keptTags, leftTags]
    revert hstep hsnd hother
    generalize visitTag (tbl, left) t = acc
    obtain ⟨tbl', left'⟩ := acc
    rintro hstep rfl hother
    rw [← List.append_assoc] at hstep
    obtain ⟨hkept, hleft, hrest⟩ := ih (left.filter fun e => e.1 ≠ t.2.name) hstep
    refine ⟨hkept.trans ?_, hleft, fun q hq => (hrest q hq).trans (hother q hq)⟩
    cases hlookup : left.lookup t.2.name with
    | none =>
      rw [leftTags_of_lookup_none hlookup]
      simp
    | some color => simp

/-- The posted tags that are left become new ones. -/
theorem foldl_insert (tbl : Table Tag) (userId : ℕ) (tags : List (String × ℕ)) : ∃ news : List (ℕ × Tag),
      (tags.foldl (fun t e => t.insert ⟨e.1, userId, e.2, 0⟩) tbl).rows = tbl.rows ++ news ∧
        news.map nameColor = tags ∧ ∀ t ∈ news, t.2.userId = userId ∧ t.2.collectionId = 0 := by
  induction tags generalizing tbl with
  | nil => exact ⟨[], (List.append_nil _).symm, rfl, fun _ ht => absurd ht List.not_mem_nil⟩
  | cons e tags ih =>
    obtain ⟨news, hrows, hmap, hnews⟩ := ih (tbl.insert ⟨e.1, userId, e.2, 0⟩)
    refine ⟨(tbl.next, ⟨e.1, userId, e.2, 0⟩) :: news, ?_, congrArg (e :: ·) hmap, ?_⟩
    · rw [List.foldl_cons, hrows, Table.insert, List.append_assoc, List.singleton_append]
    · exact List.forall_mem_cons.mpr ⟨⟨rfl, rfl⟩, hnews⟩

/-- A client's colors of tags with different names. -/
theorem foldl_setColor {acc : List (String × ℕ)} (hnodup : ((acc ++ ts.map nameColor).map (·.1)).Nodup) :
    ts.foldl setColor acc = acc ++ ts.map nameColor := by
  induction ts generalizing acc with
  | nil => exact (List.append_nil acc).symm
  | cons t ts ih =>
    have hnew : ¬ (acc.any fun e => e.1 = t.2.name) = true := by
      rw [List.any_eq_true]
      rintro ⟨e, he, hname⟩
      rw [List.map_append, List.nodup_append] at hnodup
      exact hnodup.2.2 e.1 (List.mem_map_of_mem he) t.2.name (by simp [nameColor]) (of_decide_eq_true hname)
    rw [List.foldl_cons, setColor, if_neg hnew, ih]
    · simp [nameColor]
    · simpa [nameColor] using hnodup

/-- Tags that there are already, with their colors. -/
theorem foldl_visitTag_again (hperm : (ts.map nameColor).Perm left) (hnodup : (left.map (·.1)).Nodup) :
    ts.foldl visitTag (tbl, left) = (tbl, []) := by
  induction ts generalizing left with
  | nil => rw [List.nil_perm.mp hperm, List.foldl_nil]
  | cons t ts ih =>
    have hlookup : left.lookup t.2.name = some t.2.color :=
      (lookup_some_mem (e := nameColor t) hnodup).mpr (hperm.subset List.mem_cons_self)
    have hvisit : visitTag (tbl, left) t = (tbl, left.filter fun e => e.1 ≠ t.2.name) := by
      unfold visitTag
      rw [hlookup]
      dsimp only
      rw [if_neg (by simp)]
    rw [List.foldl_cons, hvisit]
    refine ih ?_ (hnodup.sublist (List.filter_sublist.map _))
    exact (hperm.trans (perm_of_lookup hnodup hlookup).symm).cons_inv

end Loop

namespace AbTables

variable {s : AbTables} {userId : ℕ} {tags : List (String × ℕ)}

/-- The tags of a user, in all collections. -/
def tagsOfUser (s : AbTables) (userId : ℕ) : List (ℕ × Tag) := s.tags.select fun r => r.2.userId = userId

theorem tagsOf_eq_filter (s : AbTables) (userId cid : ℕ) :
    s.tagsOf userId cid = (s.tagsOfUser userId).filter fun r => r.2.collectionId = cid := by
  unfold tagsOf tagsOfUser Table.select
  rw [List.filter_filter]
  exact List.filter_congr fun r _ => Bool.and_comm ..

/-- What `UpdateTags` leaves. -/
theorem updateTags_tagsOfUser (s : AbTables) (userId : ℕ) (hnodup : (tags.map (·.1)).Nodup) :
    ∃ news, (s.updateTags userId tags).tagsOfUser userId = keptTags (s.tagsOfUser userId) tags ++ news ∧
      (∀ t ∈ news, t.2.collectionId = 0) ∧
      (((s.updateTags userId tags).tagsOfUser userId).map nameColor).Perm tags := by
  obtain ⟨hkept, hleft, -⟩ := foldl_visitTag tags
    (show (s.tags.select fun r => r.2.userId = userId) = [] ++ s.tagsOfUser userId from rfl)
  obtain ⟨news, hrows, hmap, hnews⟩ := foldl_insert ((s.tagsOfUser userId).foldl visitTag (s.tags, tags)).1 userId
    ((s.tagsOfUser userId).foldl visitTag (s.tags, tags)).2
  have htags : (s.updateTags userId tags).tagsOfUser userId = keptTags (s.tagsOfUser userId) tags ++ news := by
    refine (congrArg (List.filter _) hrows).trans ?_
    rw [List.filter_append, List.filter_eq_self.mpr fun t ht => decide_eq_true (hnews t ht).1]
    exact congrArg (· ++ news) hkept
  refine ⟨news, htags, fun t ht => (hnews t ht).2, ?_⟩
  rw [htags, List.map_append, hmap, hleft]
  exact keptTags_perm hnodup

/-- Tags of other users stay. -/
theorem updateTags_tagsOf_of_ne {uid : ℕ} (huser : uid ≠ userId) (cid : ℕ) :
    (s.updateTags userId tags).tagsOf uid cid = s.tagsOf uid cid := by
  obtain ⟨-, -, hrest⟩ := foldl_visitTag tags
    (show (s.tags.select fun r => r.2.userId = userId) = [] ++ s.tagsOfUser userId from rfl)
  obtain ⟨news, hrows, -, hnews⟩ := foldl_insert ((s.tagsOfUser userId).foldl visitTag (s.tags, tags)).1 userId
    ((s.tagsOfUser userId).foldl visitTag (s.tags, tags)).2
  have hnone : news.filter (fun r => r.2.userId = uid && r.2.collectionId = cid) = [] := by
    refine List.filter_eq_nil_iff.mpr fun t ht => ?_
    simp [(hnews t ht).1, huser.symm]
  refine (congrArg (List.filter _) hrows).trans ?_
  rw [List.filter_append, hnone, List.append_nil]
  refine hrest _ fun r hr => ?_
  rw [Bool.and_eq_true, decide_eq_true_iff] at hr
  exact hr.1 ▸ huser

theorem ab_tagColors (hnodup : (((s.tagsOf userId 0).map nameColor).map (·.1)).Nodup)
    (hlength : (s.tagsOf userId 0).length ≤ 1000) :
    (s.ab userId).tagColors.Perm ((s.tagsOf userId 0).map nameColor) := by
  have hsort := List.mergeSort_perm (s.tagsOf userId 0) fun a b => decide (a.2.name ≤ b.2.name)
  have hlist : s.listTags userId 0 = (s.tagsOf userId 0).mergeSort fun a b => a.2.name ≤ b.2.name :=
    List.take_of_length_le (hsort.length_eq ▸ hlength)
  have hcolors : (s.ab userId).tagColors = [] ++ (s.listTags userId 0).map nameColor := by
    refine foldl_setColor ?_
    rw [List.nil_append, hlist]
    exact ((hsort.map nameColor).map (·.1)).nodup_iff.mpr hnodup
  rw [hcolors, List.nil_append, hlist]
  exact hsort.map nameColor

section Exact

variable (hnodup : (tags.map (·.1)).Nodup) (hlength : tags.length ≤ 1000)

include hnodup hlength

/-- A client is told what `UpdateTags` leaves of the tags in collection 0. -/
theorem updateTags_tagColors : ((s.updateTags userId tags).ab userId).tagColors.Perm
    (((s.updateTags userId tags).tagsOf userId 0).map nameColor) := by
  obtain ⟨-, -, -, hperm⟩ := updateTags_tagsOfUser s userId hnodup
  have hsub : ((s.updateTags userId tags).tagsOf userId 0).Sublist
      ((s.updateTags userId tags).tagsOfUser userId) := by
    rw [tagsOf_eq_filter]
    exact List.filter_sublist
  refine ab_tagColors ?_ ?_
  · exact ((hperm.map (·.1)).nodup_iff.mpr hnodup).sublist ((hsub.map nameColor).map (·.1))
  · have hle := hsub.length_le
    have heq := hperm.length_eq
    rw [List.length_map] at heq
    omega

/-- A tag of another collection is deleted, or takes the place of the one that is asked for. -/
theorem updateTags_exact : (((s.updateTags userId tags).ab userId).tagColors.Perm tags ∧
      ∀ uid cid, (uid, cid) ≠ (userId, 0) → (s.updateTags userId tags).tagsOf uid cid = s.tagsOf uid cid) ↔
      ∀ t ∈ s.tags.rows, t.2.userId = userId → t.2.collectionId = 0 := by
  obtain ⟨news, htags, hnews, hperm⟩ := updateTags_tagsOfUser s userId hnodup
  have hcolors : ((s.updateTags userId tags).ab userId).tagColors.Perm
      (((s.updateTags userId tags).tagsOf userId 0).map nameColor) := updateTags_tagColors hnodup hlength
  have hmem {t : ℕ × Tag} : t ∈ s.tagsOfUser userId ↔ t ∈ s.tags.rows ∧ t.2.userId = userId := by
    rw [tagsOfUser, Table.mem_select, decide_eq_true_iff]
  constructor
  · rintro ⟨hposted, hothers⟩ t ht huser
    by_contra hne
    have hkept : t ∈ (s.updateTags userId tags).tagsOf userId t.2.collectionId := by
      rw [hothers _ _ (by simp [hne])]
      exact Table.mem_select.mpr ⟨ht, by simp [huser]⟩
    rw [tagsOf_eq_filter] at hkept
    have hmine := (List.mem_filter.mp hkept).1
    -- a tag of its name that is shown is another one, but no name is there twice
    have hshown : nameColor t ∈ ((s.updateTags userId tags).tagsOf userId 0).map nameColor :=
      (hposted.trans hperm.symm |>.symm.trans hcolors).subset (List.mem_map_of_mem hmine)
    obtain ⟨t', ht', hname⟩ := List.mem_map.mp hshown
    rw [tagsOf_eq_filter, List.mem_filter, decide_eq_true_iff] at ht'
    have hnames : (((s.updateTags userId tags).tagsOfUser userId).map fun t => t.2.name).Nodup := by
      have hall := (hperm.map (·.1)).nodup_iff.mpr hnodup
      rwa [List.map_map] at hall
    have hsame : t' = t := List.inj_on_of_nodup_map hnames ht'.1 hmine (congrArg Prod.fst hname)
    exact hne (hsame ▸ ht'.2)
  · intro hzero
    have hafter : ∀ t ∈ (s.updateTags userId tags).tagsOfUser userId, t.2.collectionId = 0 := by
      rw [htags]
      intro t ht
      rcases List.mem_append.mp ht with ht | ht
      · obtain ⟨t', ht', -, heq⟩ := mem_keptTags ht
        rw [heq]
        exact hzero t' (hmem.mp ht').1 (hmem.mp ht').2
      · exact hnews t ht
    constructor
    · have hfull : (s.updateTags userId tags).tagsOf userId 0 = (s.updateTags userId tags).tagsOfUser userId := by
        rw [tagsOf_eq_filter]
        exact List.filter_eq_self.mpr fun t ht => decide_eq_true (hafter t ht)
      exact (hfull ▸ hcolors).trans hperm
    · intro uid cid hne
      by_cases huser : uid = userId
      · subst huser
        have hcid : cid ≠ 0 := fun h => hne (by rw [h])
        rw [tagsOf_eq_filter, tagsOf_eq_filter, List.filter_eq_nil_iff.mpr, List.filter_eq_nil_iff.mpr]
        · intro t ht
          simp [hzero t (hmem.mp ht).1 (hmem.mp ht).2, hcid.symm]
        · intro t ht
          simp [hafter t ht, hcid.symm]
      · exact updateTags_tagsOf_of_ne huser cid

end Exact

/-- Posting the tags that a client is told changes nothing, if it is told all. -/
theorem updateTags_again (hnodup : (((s.tagsOfUser userId).map nameColor).map (·.1)).Nodup)
    (hperm : tags.Perm ((s.tagsOfUser userId).map nameColor)) : (s.updateTags userId tags).tags = s.tags := by
  have hloop : (s.tagsOfUser userId).foldl visitTag (s.tags, tags) = (s.tags, []) :=
    foldl_visitTag_again hperm.symm ((hperm.map (·.1)).nodup_iff.mpr hnodup)
  show (List.foldl _ ((s.tagsOfUser userId).foldl visitTag (s.tags, tags)).1
    ((s.tagsOfUser userId).foldl visitTag (s.tags, tags)).2) = s.tags
  rw [hloop]
  rfl

end AbTables

end RustDesk.Api
