import Tagwise.Lib.Shortlist
import Tagwise.Proofs.BlockedInvisible

namespace Tagwise.Proofs.SearchResults
open Js Lib Tagwise.Core Services Api

/-- No worse a match than the other: of a smaller rank, or of the same and no longer. -/
def rowLe (query : JsString) (a b : Identity) : Bool :=
  ranksBefore (a, rankOf a query) (b, rankOf b query)

/-- An active row of one of the four ranks. -/
def ranked (query : JsString) (row : Identity) : Bool :=
  row.status = .active && rankOf row query < 4

def itemOf (row : Identity) : SearchResultItem where
  tag := presentTag row.tag
  displayName := row.displayName
  avatar := row.avatar
  verified := row.verified

/-- The rows listed are active and ranked, ten at most, in order, and none is left out that
comes strictly before one of them, or for which there is room. -/
structure TopRows (identities : Identities) (query : JsString) (rows : List Identity) : Prop where
  stored : ∀ row ∈ rows, row ∈ identities.rows ∧ ranked query row = true
  nodup : rows.Nodup
  length : rows.length ≤ searchResultLimit
  sorted : rows.Pairwise (fun a b => rowLe query a b = true)
  complete : rows.length < searchResultLimit →
    ∀ row ∈ identities.rows, ranked query row = true → row ∈ rows
  least : ∀ row ∈ identities.rows, ranked query row = true → row ∉ rows →
    ∀ listed ∈ rows, rowLe query listed row = true
  exactFirst : ∀ row ∈ identities.rows, row.status = .active → row.tag = query →
    rows.head? = some row

def TopResults (identities : Identities) (query : JsString) (items : List SearchResultItem) : Prop :=
  ∃ rows, items = rows.map itemOf ∧ TopRows identities query rows

section Order
variable (query : JsString)

theorem rowLe_iff (a b : Identity) : rowLe query a b = true ↔
    rankOf a query < rankOf b query ∨
      rankOf a query = rankOf b query ∧ a.tag.length ≤ b.tag.length := by
  simp [rowLe, ranksBefore]

theorem rowLe_trans (a b c : Identity) (hab : rowLe query a b = true)
    (hbc : rowLe query b c = true) : rowLe query a c = true := by
  rw [rowLe_iff] at hab hbc ⊢
  omega

theorem rowLe_total (a b : Identity) : (rowLe query a b || rowLe query b a) = true := by
  rw [Bool.or_eq_true, rowLe_iff, rowLe_iff]
  omega

theorem rankOf_exact (row : Identity) : rankOf row query = 0 ↔ row.tag = query := by
  rw [rankOf]
  constructor
  · intro h
    split at h
    · assumption
    · split at h
      · cases h
      · simp only at h
        split at h
        · cases h
        · split at h
          · cases h
          · cases h
  · intro h
    rw [if_pos h]

end Order

section Run
variable (cfg : ApiConfig) (w : ApiWorld) (query : JsString)

/-- The rows that the database matches, in the order it scans them. -/
def matched (identities : Identities) : List Identity :=
  (identities.rows.filter (fun row => row.status = .active)).filter (cfg.finds query)

def fetched : List Identity :=
  (w.order.scan (matched cfg query w.mirror.identities)).take searchOverFetchLimit

/-- The rows that the fetched ones give a search. -/
def listed (rows : List Identity) : List Identity :=
  shortlist (rowLe query) searchResultLimit (rows.filter (fun row => rankOf row query < 4))

theorem sorted_ranked (rows : List Identity) :
    ((((rows.map (fun row => (row, rankOf row query))).filter (fun (_, rank) => rank < 4)).mergeSort
      ranksBefore).take searchResultLimit).map Prod.fst = listed query rows := by
  have hfilter : (rows.map (fun row => (row, rankOf row query))).filter (fun (_, rank) => rank < 4) =
      (rows.filter (fun row => rankOf row query < 4)).map (fun row => (row, rankOf row query)) := by
    rw [List.filter_map]
    rfl
  have hsort := List.map_mergeSort (r := rowLe query) (s := ranksBefore)
    (f := fun row => (row, rankOf row query)) (l := rows.filter (fun row => rankOf row query < 4))
    (fun _ _ _ _ => rfl)
  rw [hfilter, ← hsort, ← List.map_take, List.map_map]
  exact List.map_id _

theorem search_run (up : w.mirror.dbUp = true) (rawQuery : JsString)
    (filled : toLowerCase (trim rawQuery) ≠ [])
    (hs : storable (toLowerCase (trim rawQuery)) = true) :
    (search cfg rawQuery).run ApiWorld.handle w =
      some (w, .ok ((listed (toLowerCase (trim rawQuery))
        (fetched cfg w (toLowerCase (trim rawQuery)))).map itemOf)) := by
  have hne : (toLowerCase (trim rawQuery)).length ≠ 0 := by
    rwa [ne_eq, List.length_eq_zero_iff]
  have hfetch : w.handle (.findManyActive (toLowerCase (trim rawQuery))
      (cfg.finds (toLowerCase (trim rawQuery))) searchOverFetchLimit) =
        some (w, .ok (fetched cfg w (toLowerCase (trim rawQuery)))) := by
    rw [ApiWorld.handle, if_pos up, if_pos hs]
    rfl
  have hrun : (findManyActive (toLowerCase (trim rawQuery))
      (cfg.finds (toLowerCase (trim rawQuery))) searchOverFetchLimit).run ApiWorld.handle w =
        some (w, .ok (fetched cfg w (toLowerCase (trim rawQuery)))) :=
    (Prog.run_call hfetch).trans rfl
  rw [search, if_neg hne]
  refine (Prog.run_bind_ok hrun).trans ?_
  rw [← sorted_ranked, List.map_map]
  rfl

/-- A query with a U+0000 in it fails. -/
theorem search_unstorable (up : w.mirror.dbUp = true) (rawQuery : JsString)
    (hs : storable (toLowerCase (trim rawQuery)) = false) :
    (search cfg rawQuery).run ApiWorld.handle w =
      some (w, .error (.thrown (.database .invalidText))) := by
  have hne : (toLowerCase (trim rawQuery)).length ≠ 0 := by
    intro h
    rw [List.length_eq_zero_iff.mp h] at hs
    cases hs
  have hfetch : w.handle (.findManyActive (toLowerCase (trim rawQuery))
      (cfg.finds (toLowerCase (trim rawQuery))) searchOverFetchLimit) =
        some (w, .error .invalidText) := by
    rw [ApiWorld.handle, if_pos up, if_neg (by rw [hs]; decide)]
  have hrun : (findManyActive (toLowerCase (trim rawQuery))
      (cfg.finds (toLowerCase (trim rawQuery))) searchOverFetchLimit).run ApiWorld.handle w =
        some (w, .error (.thrown (.database .invalidText))) :=
    (Prog.run_call hfetch).trans rfl
  rw [search, if_neg hne]
  exact (Prog.run_bind _ _ w).trans (by rw [hrun])

end Run

section Top
variable {identities : Identities} {query : JsString} {rows : List Identity}
variable {others : Identity → Bool}

/-- A match that no match among the others comes strictly before. -/
def ahead (identities : Identities) (query : JsString) (others : Identity → Bool)
    (row : Identity) : Bool :=
  ranked query row &&
    identities.rows.all (fun other => !(ranked query other && others other) || rowLe query row other)

theorem ahead_iff (row : Identity) : ahead identities query others row = true ↔
    ranked query row = true ∧ ∀ other ∈ identities.rows, ranked query other = true →
      others other = true → rowLe query row other = true := by
  rw [ahead, Bool.and_eq_true, List.all_eq_true]
  refine and_congr_right (fun _ => forall₂_congr (fun other _ => ?_))
  cases ranked query other <;> cases others other <;> simp

/-- A match that no other comes strictly before. -/
def best (identities : Identities) (query : JsString) (row : Identity) : Bool :=
  ahead identities query (fun _ => true) row

theorem best_iff (row : Identity) : best identities query row = true ↔ ranked query row = true ∧
    ∀ other ∈ identities.rows, ranked query other = true → rowLe query row other = true := by
  rw [best, ahead_iff]
  exact and_congr_right (fun _ =>
    ⟨fun h other ho hr => h other ho hr rfl,fun h other ho hr _ => h other ho hr⟩)

theorem ranked_iff (row : Identity) : ranked query row = true ↔
    row.status = .active ∧ rankOf row query < 4 := by
  simp [ranked]

theorem exact_ranked {row : Identity} (ha : row.status = .active) (ht : row.tag = query) :
    ranked query row = true := by
  rw [ranked_iff, (rankOf_exact query row).mpr ht]
  exact ⟨ha,by omega⟩

/-- What comes no later than the exact match is it. -/
theorem exact_least {row other : Identity} (hrow : row ∈ identities.rows)
    (hother : other ∈ identities.rows) (ht : row.tag = query)
    (hle : rowLe query other row = true) : other = row := by
  rw [rowLe_iff, (rankOf_exact query row).mpr ht] at hle
  have hrank : rankOf other query = 0 := by omega
  exact Table.unique_row hother hrow (((rankOf_exact query other).mp hrank).trans ht.symm)

theorem exact_first (stored : ∀ row ∈ rows, row ∈ identities.rows)
    (sorted : rows.Pairwise (fun a b => rowLe query a b = true))
    (complete : rows.length < searchResultLimit →
      ∀ row ∈ identities.rows, ranked query row = true → row ∈ rows)
    (least : ∀ row ∈ identities.rows, ranked query row = true → row ∉ rows →
      ∀ listed ∈ rows, rowLe query listed row = true)
    {row : Identity} (hrow : row ∈ identities.rows) (ha : row.status = .active)
    (ht : row.tag = query) : rows.head? = some row := by
  have hr := exact_ranked ha ht
  cases rows with
  | nil => exact absurd (complete (by decide) row hrow hr) List.not_mem_nil
  | cons first rest =>
    have hfirst := stored first List.mem_cons_self
    by_cases hin : row ∈ first :: rest
    · rcases List.mem_cons.mp hin with rfl | hin
      · rfl
      · rw [exact_least hrow hfirst ht ((List.pairwise_cons.mp sorted).1 row hin)]
        rfl
    · rw [exact_least hrow hfirst ht (least row hrow hr hin first List.mem_cons_self)]
      rfl

/-- Where those rows lack only others, and hold every match or ten ahead of the others, the
ones listed are the top ones. -/
theorem listed_top (others : Identity → Bool)
    (stored : ∀ row ∈ rows, row ∈ identities.rows ∧ row.status = .active)
    (nodup : rows.Nodup)
    (lacks : ∀ row ∈ identities.rows, ranked query row = true → row ∉ rows → others row = true)
    (henough : (∀ row ∈ identities.rows, ranked query row = true → row ∈ rows) ∨
      searchResultLimit ≤ rows.countP (ahead identities query others)) :
    TopRows identities query (listed query rows) := by
  have trans := rowLe_trans query
  have total := rowLe_total query
  have hstored : ∀ row ∈ listed query rows, row ∈ identities.rows ∧ ranked query row = true := by
    intro row hrow
    obtain ⟨hm,hrank⟩ := List.mem_filter.mp (mem_of_shortlist hrow)
    obtain ⟨hin,ha⟩ := stored row hm
    exact ⟨hin,(ranked_iff row).mpr ⟨ha,of_decide_eq_true hrank⟩⟩
  have hkept : ∀ row, ranked query row = true → row ∈ rows →
      row ∈ rows.filter (fun row => rankOf row query < 4) := fun row hr hm =>
    List.mem_filter.mpr ⟨hm,decide_eq_true ((ranked_iff row).mp hr).2⟩
  have hlength : (listed query rows).length =
      min searchResultLimit (rows.filter (fun row => rankOf row query < 4)).length := shortlist_length
  have hrest : ((listed query rows).length < searchResultLimit →
      ∀ row ∈ identities.rows, ranked query row = true → row ∈ listed query rows) ∧
      ∀ row ∈ identities.rows, ranked query row = true → row ∉ listed query rows →
        ∀ above ∈ listed query rows, rowLe query above row = true := by
    rcases henough with hall | hten
    · refine ⟨fun hshort row hrow hr => ?_,fun row hrow hr hout => ?_⟩
      · exact shortlist_all (by omega) (hkept row hr (hall row hrow hr))
      · exact shortlist_least trans total (hkept row hr (hall row hrow hr)) hout
    · have hcount : searchResultLimit ≤ (rows.filter (fun row => rankOf row query < 4)).countP
          (ahead identities query others) := by
        rw [List.countP_filter]
        refine Nat.le_trans hten (List.countP_mono_left (fun row _ hb => ?_))
        rw [Bool.and_eq_true, decide_eq_true_eq]
        exact ⟨hb,((ranked_iff row).mp ((ahead_iff row).mp hb).1).2⟩
      have hahead : ∀ row ∈ listed query rows, ahead identities query others row = true := by
        refine shortlist_best trans total (fun b _ hb y hy hle => ?_) hcount
        obtain ⟨hm,hrank⟩ := List.mem_filter.mp hy
        obtain ⟨_,ha⟩ := stored y hm
        refine (ahead_iff y).mpr ⟨(ranked_iff y).mpr ⟨ha,of_decide_eq_true hrank⟩,?_⟩
        intro other hother hr ho
        exact trans y b other hle (((ahead_iff b).mp hb).2 other hother hr ho)
      refine ⟨fun hshort => ?_,fun row hrow hr hout above habove => ?_⟩
      · have := List.countP_le_length (p := ahead identities query others)
          (l := rows.filter (fun row => rankOf row query < 4))
        omega
      · by_cases hm : row ∈ rows
        · exact shortlist_least trans total (hkept row hr hm) hout above habove
        · exact ((ahead_iff above).mp (hahead above habove)).2 row hrow hr (lacks row hrow hr hm)
  have hsorted := shortlist_sorted searchResultLimit
    (rows.filter (fun row => rankOf row query < 4)) trans total
  exact ⟨hstored,shortlist_nodup (nodup.filter _),by rw [hlength]; exact Nat.min_le_left _ _,hsorted,
    hrest.1,hrest.2,fun row hrow ha ht =>
      exact_first (fun row hrow => (hstored row hrow).1) hsorted hrest.1 hrest.2 hrow ha ht⟩

end Top

/-- The database's filter holds it back. -/
def unfound (cfg : ApiConfig) (query : JsString) (row : Identity) : Bool := !cfg.finds query row

/-- Every match is fetched, or ten that come first whatever is left behind: by the filter, where
all it lets through are fetched, and by the limit, where only so many of them are. -/
def InReach (cfg : ApiConfig) (query : JsString) (identities : Identities) : Prop :=
  storable query = true ∧
  ((∀ row ∈ identities.rows, ranked query row = false) ∨
    if (matched cfg query identities).length ≤ searchOverFetchLimit then
      (∀ row ∈ identities.rows, ranked query row = true → cfg.finds query row = true) ∨
      searchResultLimit ≤ (matched cfg query identities).countP
        (ahead identities query (unfound cfg query))
    else
      (matched cfg query identities).length + searchResultLimit ≤
        (matched cfg query identities).countP (best identities query) + searchOverFetchLimit)

section Matched
variable {cfg : ApiConfig} {query : JsString} {identities : Identities}

theorem matched_stored {row : Identity} (h : row ∈ matched cfg query identities) :
    row ∈ identities.rows ∧ row.status = .active := by
  obtain ⟨hrow,ha⟩ := List.mem_filter.mp (List.mem_filter.mp h).1
  exact ⟨hrow,of_decide_eq_true ha⟩

theorem matched_nodup : (matched cfg query identities).Nodup :=
  ((identities.unique.of_map _).filter _).filter _

theorem matched_iff {row : Identity} (hrow : row ∈ identities.rows)
    (hr : ranked query row = true) :
    row ∈ matched cfg query identities ↔ cfg.finds query row = true := by
  rw [matched, List.mem_filter, List.mem_filter]
  exact and_iff_right ⟨hrow,decide_eq_true ((ranked_iff row).mp hr).1⟩

/-- Where the database's two conditions are what they are named, the filter lets every match
through. -/
theorem ranked_found
    (startsWith : ∀ tag, query <+: tag → cfg.tagStartsWith tag query = true)
    (contains : ∀ displayName, query <:+: toLowerCase displayName →
      cfg.displayNameContains displayName query = true)
    (hq : query ≠ []) {row : Identity} (hr : ranked query row = true) :
    cfg.finds query row = true := by
  obtain ⟨_,hrank⟩ := (ranked_iff row).mp hr
  rw [ApiConfig.finds, Bool.or_eq_true]
  rw [rankOf] at hrank
  split at hrank
  · rename_i htag
    exact .inl (startsWith _ (htag ▸ List.prefix_rfl))
  · split at hrank
    · rename_i hprefix
      exact .inl (startsWith _ (List.isPrefixOf_iff_prefix.mp hprefix))
    · right
      have hnamed : query <+: (row.displayName.map toLowerCase).getD [] := by
        simp only at hrank
        split at hrank
        · rename_i hname
          exact hname ▸ List.prefix_rfl
        · split at hrank
          · rename_i hname
            exact List.isPrefixOf_iff_prefix.mp hname
          · omega
      cases hd : row.displayName with
      | none =>
        rw [hd] at hnamed
        exact absurd (List.prefix_nil.mp hnamed) hq
      | some displayName =>
        rw [hd] at hnamed
        exact contains _ hnamed.isInfix

end Matched

section Fetched
variable {cfg : ApiConfig} {query : JsString} {w : ApiWorld}

theorem fetched_stored {row : Identity} (h : row ∈ fetched cfg w query) :
    row ∈ matched cfg query w.mirror.identities :=
  (w.order.perm _).mem_iff.mp (List.mem_of_mem_take h)

theorem fetched_nodup : (fetched cfg w query).Nodup :=
  (List.take_sublist _ _).nodup ((w.order.perm _).nodup_iff.mpr matched_nodup)

theorem fetched_all
    (h : (matched cfg query w.mirror.identities).length ≤ searchOverFetchLimit) :
    (fetched cfg w query).Perm (matched cfg query w.mirror.identities) := by
  have hperm := w.order.perm (matched cfg query w.mirror.identities)
  rw [fetched, List.take_of_length_le (by rw [hperm.length_eq]; exact h)]
  exact hperm

/-- The limit leaves no more of them behind than there are rows over it. -/
theorem fetched_best :
    (matched cfg query w.mirror.identities).countP (best w.mirror.identities query) +
        searchOverFetchLimit ≤
      (fetched cfg w query).countP (best w.mirror.identities query) +
        max searchOverFetchLimit (matched cfg query w.mirror.identities).length := by
  have hperm := w.order.perm (matched cfg query w.mirror.identities)
  have hsplit := congrArg (List.countP (best w.mirror.identities query))
    (List.take_append_drop searchOverFetchLimit
      (w.order.scan (matched cfg query w.mirror.identities)))
  rw [List.countP_append, hperm.countP_eq] at hsplit
  have hrest := List.countP_le_length (p := best w.mirror.identities query)
    (l := (w.order.scan (matched cfg query w.mirror.identities)).drop searchOverFetchLimit)
  rw [List.length_drop, hperm.length_eq] at hrest
  rw [fetched]
  omega

/-- Within reach, whatever the order. -/
theorem fetched_top (h : InReach cfg query w.mirror.identities) :
    TopRows w.mirror.identities query (listed query (fetched cfg w query)) := by
  have hstored : ∀ row ∈ fetched cfg w query,
      row ∈ w.mirror.identities.rows ∧ row.status = .active := fun row hrow =>
    matched_stored (fetched_stored hrow)
  obtain ⟨_,hnone | h⟩ := h
  · refine listed_top (fun _ => true) hstored fetched_nodup (fun _ _ _ _ => rfl) (.inl ?_)
    intro row hrow hr
    rw [hnone row hrow] at hr
    cases hr
  · split at h
    · rename_i hall
      have hperm := fetched_all hall
      have hin : ∀ row ∈ w.mirror.identities.rows, ranked query row = true →
          (row ∈ fetched cfg w query ↔ cfg.finds query row = true) := fun row hrow hr =>
        hperm.mem_iff.trans (matched_iff hrow hr)
      refine listed_top (unfound cfg query) hstored fetched_nodup
        (fun row hrow hr hout => ?_) (h.imp (fun h row hrow hr => ?_) (fun h => ?_))
      · rw [hin row hrow hr, Bool.not_eq_true] at hout
        rw [unfound, hout]
        rfl
      · exact (hin row hrow hr).mpr (h row hrow hr)
      · rwa [hperm.countP_eq]
    · rename_i hover
      refine listed_top (fun _ => true) hstored fetched_nodup (fun _ _ _ _ => rfl)
        (.inr ?_)
      have hbest := @fetched_best cfg query w
      change searchResultLimit ≤ (fetched cfg w query).countP (best w.mirror.identities query)
      omega

end Fetched

/-- Sorted by tag, with some rows after all others. -/
def postponing (late : Identity → Bool) : ScanOrder where
  scan := fun rows => (ScanOrder.byTag.scan rows).filter (!late ·) ++
    (ScanOrder.byTag.scan rows).filter late
  perm := by
    intro rows
    exact (List.perm_append_comm.trans (List.filter_append_perm late _)).trans
      (ScanOrder.byTag.perm rows)
  agrees := by
    intro rows rows' hu hp
    rw [ScanOrder.byTag.agrees rows rows' hu hp]

section Adversary
variable {cfg : ApiConfig} {query : JsString} {identities : Identities}

variable (cfg query identities) in
def bestMatches : List Identity :=
  (matched cfg query identities).filter (best identities query)

variable (cfg query identities) in
/-- As many of the best as are not fetched. -/
def left : List Identity :=
  (bestMatches cfg query identities).take
    ((matched cfg query identities).length - searchOverFetchLimit)

variable (cfg query) in
/-- The world in which they come last. -/
def againstBest (w : ApiWorld) : ApiWorld :=
  { w with order := postponing (fun row => row ∈ left cfg query w.mirror.identities) }

/-- Of ranked rows, one is best. -/
theorem best_exists {row : Identity} (hrow : row ∈ identities.rows)
    (hr : ranked query row = true) : ∃ b ∈ identities.rows, best identities query b = true := by
  have trans := rowLe_trans query
  have total := rowLe_total query
  have hin : row ∈ identities.rows.filter (ranked query) := List.mem_filter.mpr ⟨hrow,hr⟩
  have hone : (shortlist (rowLe query) 1 (identities.rows.filter (ranked query))).length = 1 := by
    rw [shortlist_length]
    have := List.length_pos_of_mem hin
    omega
  obtain ⟨b,hb⟩ := List.length_eq_one_iff.mp hone
  have hmem : b ∈ shortlist (rowLe query) 1 (identities.rows.filter (ranked query)) := by
    rw [hb]
    exact List.mem_cons_self
  obtain ⟨hstored,hranked⟩ := List.mem_filter.mp (mem_of_shortlist hmem)
  refine ⟨b,hstored,(best_iff b).mpr ⟨hranked,fun other hother hro => ?_⟩⟩
  by_cases hout : other ∈ shortlist (rowLe query) 1 (identities.rows.filter (ranked query))
  · rw [hb, List.mem_singleton] at hout
    rw [hout]
    simpa using total b b
  · exact shortlist_least trans total (List.mem_filter.mpr ⟨hother,hro⟩) hout b hmem

theorem fetched_not_left {w : ApiWorld}
    (hover : searchOverFetchLimit < (matched cfg query w.mirror.identities).length)
    {row : Identity}
    (h : row ∈ fetched cfg (againstBest cfg query w) query) :
    row ∉ left cfg query w.mirror.identities := by
  have hperm := ScanOrder.byTag.perm (matched cfg query w.mirror.identities)
  have hback : ((ScanOrder.byTag.scan (matched cfg query w.mirror.identities)).filter
      (fun row => row ∈ left cfg query w.mirror.identities)).length ≤
        (matched cfg query w.mirror.identities).length - searchOverFetchLimit := by
    have hsub : List.Subperm _ (left cfg query w.mirror.identities) := List.subperm_of_subset
      ((hperm.nodup_iff.mpr matched_nodup).filter _)
      (fun row hrow => of_decide_eq_true (List.mem_filter.mp hrow).2)
    exact Nat.le_trans hsub.length_le (List.length_take_le _ _)
  have hsum := (List.filter_append_perm (fun row => row ∈ left cfg query w.mirror.identities)
    (ScanOrder.byTag.scan (matched cfg query w.mirror.identities))).length_eq
  rw [List.length_append, hperm.length_eq] at hsum
  have hfront : searchOverFetchLimit ≤
      ((ScanOrder.byTag.scan (matched cfg query w.mirror.identities)).filter
        (fun row => !decide (row ∈ left cfg query w.mirror.identities))).length := by omega
  have hfetched : fetched cfg (againstBest cfg query w) query =
      ((ScanOrder.byTag.scan (matched cfg query w.mirror.identities)).filter
        (fun row => !decide (row ∈ left cfg query w.mirror.identities))).take
          searchOverFetchLimit := List.take_append_of_le_length hfront
  rw [hfetched] at h
  simpa using (List.mem_filter.mp (List.mem_of_mem_take h)).2

theorem rows_eq_of_tags {rows rows' : List Identity} (h : ∀ row ∈ rows, row ∈ identities.rows)
    (h' : ∀ row ∈ rows', row ∈ identities.rows)
    (he : rows.map itemOf = rows'.map itemOf) : rows = rows' := by
  have htags : rows.map Identity.tag = rows'.map Identity.tag := by
    have hpresent := congrArg (List.map SearchResultItem.tag) he
    rw [List.map_map, List.map_map] at hpresent
    have hinj : Function.Injective presentTag := fun _ _ ht => List.append_cancel_left ht
    apply hinj.list_map
    rw [List.map_map, List.map_map]
    exact hpresent
  have hfind : ∀ rows : List Identity, (∀ row ∈ rows, row ∈ identities.rows) →
      (rows.map Identity.tag).map identities.find = rows.map some := by
    intro rows h
    rw [List.map_map]
    exact List.map_congr_left (fun row hrow => Table.find_of_mem (h row hrow))
  have hsome : rows.map some = rows'.map some := by
    rw [← hfind rows h, ← hfind rows' h', htags]
  exact (Option.some_injective _).list_map hsome

/-- The best that can be fetched in that order are too few. -/
theorem best_fetched_few {w : ApiWorld}
    (hover : searchOverFetchLimit < (matched cfg query w.mirror.identities).length) {rows : List Identity}
    (hnodup : rows.Nodup) (hfetched : ∀ row ∈ rows, row ∈ fetched cfg (againstBest cfg query w) query)
    (hbest : ∀ row ∈ rows, best w.mirror.identities query row = true) :
    rows.length + (matched cfg query w.mirror.identities).length ≤
      (matched cfg query w.mirror.identities).countP (best w.mirror.identities query) +
        searchOverFetchLimit ∨ rows = [] := by
  have hdrop : rows ⊆ (bestMatches cfg query w.mirror.identities).drop
      ((matched cfg query w.mirror.identities).length - searchOverFetchLimit) := by
    intro row hrow
    have hin : row ∈ bestMatches cfg query w.mirror.identities :=
      List.mem_filter.mpr
        ⟨fetched_stored (w := againstBest cfg query w) (hfetched row hrow),hbest row hrow⟩
    rw [← List.take_append_drop ((matched cfg query w.mirror.identities).length -
      searchOverFetchLimit) (bestMatches cfg query w.mirror.identities)] at hin
    rcases List.mem_append.mp hin with hin | hin
    · exact absurd hin (fetched_not_left hover (hfetched row hrow))
    · exact hin
  have hlength := (List.subperm_of_subset hnodup hdrop).length_le
  rw [List.length_drop, bestMatches, ← List.countP_eq_length_filter] at hlength
  cases rows with
  | nil => exact .inr rfl
  | cons row rows =>
    rw [List.length_cons] at hlength ⊢
    left
    omega

/-- The matches that the filter holds back come no earlier. -/
theorem found_enough {w : ApiWorld} {rows : List Identity} (htop : TopRows w.mirror.identities query rows)
    (hfetched : ∀ row ∈ rows, row ∈ fetched cfg w query) :
    (∀ row ∈ w.mirror.identities.rows, ranked query row = true → cfg.finds query row = true) ∨
    searchResultLimit ≤ (matched cfg query w.mirror.identities).countP
      (ahead w.mirror.identities query (unfound cfg query)) := by
  by_cases hfound : ∀ row ∈ w.mirror.identities.rows, ranked query row = true →
      cfg.finds query row = true
  · exact .inl hfound
  right
  have hout : ∀ row ∈ w.mirror.identities.rows, ranked query row = true →
      unfound cfg query row = true → row ∉ rows := by
    intro row hrow hr hu hin
    rw [unfound, (matched_iff hrow hr).mp (fetched_stored (hfetched row hin))] at hu
    cases hu
  have hlength : searchResultLimit ≤ rows.length := by
    by_contra hshort
    refine hfound (fun row hrow hr => ?_)
    have hin := htop.complete (Nat.lt_of_not_le hshort) row hrow hr
    exact (matched_iff hrow hr).mp (fetched_stored (hfetched row hin))
  have hahead : rows ⊆ (matched cfg query w.mirror.identities).filter
      (ahead w.mirror.identities query (unfound cfg query)) := by
    intro row hrow
    refine List.mem_filter.mpr ⟨fetched_stored (hfetched row hrow),
      (ahead_iff row).mpr ⟨(htop.stored row hrow).2,fun other hother hro hu => ?_⟩⟩
    exact htop.least other hother hro (hout other hother hro hu) row hrow
  rw [List.countP_eq_length_filter]
  exact Nat.le_trans hlength (List.subperm_of_subset htop.nodup hahead).length_le

/-- One of the best is not fetched. -/
theorem best_missed {w : ApiWorld}
    (hover : searchOverFetchLimit < (matched cfg query w.mirror.identities).length)
    {row : Identity} (hrow : row ∈ w.mirror.identities.rows) (hr : ranked query row = true) :
    ∃ missed ∈ w.mirror.identities.rows, best w.mirror.identities query missed = true ∧
      missed ∉ fetched cfg (againstBest cfg query w) query := by
  obtain ⟨b,hb,hbest⟩ := best_exists hrow hr
  by_cases hin : b ∈ matched cfg query w.mirror.identities
  · obtain ⟨missed,hmissed⟩ : ∃ missed, missed ∈ left cfg query w.mirror.identities := by
      apply List.exists_mem_of_length_pos
      have hpos := List.length_pos_of_mem (l := bestMatches cfg query w.mirror.identities)
        (List.mem_filter.mpr ⟨hin,hbest⟩)
      rw [left, List.length_take]
      omega
    obtain ⟨hmatched,hmissedBest⟩ := List.mem_filter.mp (List.mem_of_mem_take hmissed)
    exact ⟨missed,(matched_stored hmatched).1,hmissedBest,
      fun h => fetched_not_left hover h hmissed⟩
  · exact ⟨b,hb,hbest,fun h => hin (fetched_stored (w := againstBest cfg query w) h)⟩

/-- Where the limit leaves rows behind, in that order so many are best that ten are fetched. -/
theorem best_enough {w : ApiWorld}
    (hover : searchOverFetchLimit < (matched cfg query w.mirror.identities).length)
    (hsome : ∃ row ∈ w.mirror.identities.rows, ranked query row = true)
    {rows : List Identity} (htop : TopRows w.mirror.identities query rows)
    (hfetched : ∀ row ∈ rows, row ∈ fetched cfg (againstBest cfg query w) query) :
    (matched cfg query w.mirror.identities).length + searchResultLimit ≤
      (matched cfg query w.mirror.identities).countP (best w.mirror.identities query) +
        searchOverFetchLimit := by
  obtain ⟨row,hrow,hr⟩ := hsome
  obtain ⟨missed,hmissed,hbest,hout⟩ := best_missed hover hrow hr
  have hnot : missed ∉ rows := fun h => hout (hfetched missed h)
  have hranked := ((best_iff missed).mp hbest).1
  have hlength : searchResultLimit ≤ rows.length := by
    by_contra hshort
    exact hnot (htop.complete (Nat.lt_of_not_le hshort) missed hmissed hranked)
  -- all ten listed are then best
  have hall : ∀ row ∈ rows, best w.mirror.identities query row = true := by
    intro y hy
    have hle := htop.least missed hmissed hranked hnot y hy
    refine (best_iff y).mpr ⟨(htop.stored y hy).2,fun other hother hro => ?_⟩
    exact rowLe_trans query y missed other hle (((best_iff missed).mp hbest).2 other hother hro)
  rcases best_fetched_few hover htop.nodup hfetched hall with hcount | hnil
  · omega
  · rw [hnil] at hlength
    exact absurd hlength (by decide)

end Adversary

theorem items_top {cfg : ApiConfig} {query : JsString} {w : ApiWorld}
    (h : TopResults w.mirror.identities query ((listed query (fetched cfg w query)).map itemOf)) :
    TopRows w.mirror.identities query (listed query (fetched cfg w query)) := by
  obtain ⟨rows,hitems,htop⟩ := h
  have hrows : listed query (fetched cfg w query) = rows :=
    rows_eq_of_tags
      (fun row hrow => (matched_stored (fetched_stored
        (List.mem_filter.mp (mem_of_shortlist hrow)).1)).1)
      (fun row hrow => (htop.stored row hrow).1) hitems
  rwa [hrows]

/-- A search gives the top results whatever order the database returns rows in, exactly when
they are within reach of what it fetches. -/
theorem search_top_iff (cfg : ApiConfig) (w : ApiWorld) (up : w.mirror.dbUp = true)
    (rawQuery : JsString) (filled : trim rawQuery ≠ []) :
    (∀ order : ScanOrder, ∃ items,
      (search cfg rawQuery).run ApiWorld.handle { w with order } = some ({ w with order }, .ok items) ∧
      TopResults w.mirror.identities (toLowerCase (trim rawQuery)) items) ↔
    InReach cfg (toLowerCase (trim rawQuery)) w.mirror.identities := by
  have hq := toLowerCase_ne_nil filled
  constructor
  · intro h
    have hs : storable (toLowerCase (trim rawQuery)) = true := by
      by_contra hs
      obtain ⟨_,hrun,_⟩ := h w.order
      cases (search_unstorable cfg w up rawQuery (Bool.not_eq_true _ ▸ hs)).symm.trans hrun
    have htop : ∀ order : ScanOrder, TopRows w.mirror.identities (toLowerCase (trim rawQuery))
        (listed (toLowerCase (trim rawQuery))
          (fetched cfg { w with order } (toLowerCase (trim rawQuery)))) := by
      intro order
      obtain ⟨items,hrun,htop⟩ := h order
      cases (search_run cfg { w with order } up rawQuery hq hs).symm.trans hrun
      exact items_top (w := { w with order }) htop
    have hlisted : ∀ order : ScanOrder, ∀ row ∈ listed (toLowerCase (trim rawQuery))
        (fetched cfg { w with order } (toLowerCase (trim rawQuery))),
        row ∈ fetched cfg { w with order } (toLowerCase (trim rawQuery)) := fun _ row hrow =>
      (List.mem_filter.mp (mem_of_shortlist hrow)).1
    refine ⟨hs,?_⟩
    by_cases hsome : ∃ row ∈ w.mirror.identities.rows,
        ranked (toLowerCase (trim rawQuery)) row = true
    · right
      split
      · exact found_enough (htop w.order) (hlisted w.order)
      · rename_i hover
        exact best_enough (Nat.lt_of_not_le hover) hsome (htop _) (hlisted _)
    · left
      intro row hrow
      exact Bool.eq_false_iff.mpr (fun hr => hsome ⟨row,hrow,hr⟩)
  · intro h order
    exact ⟨_,search_run cfg { w with order } up rawQuery hq h.1,_,rfl,
      fetched_top (w := { w with order }) h⟩

def searchConfig : ApiConfig :=
  { BlockedInvisible.sampleConfig with
    displayNameContains := fun displayName query =>
      (toLowerCase displayName).tails.any query.isPrefixOf }

/-- A row under its tag, another whose name starts so, and one where it stands further on. -/
def fewNames : Identities :=
  ⟨[{ BlockedInvisible.sampleRow "guy" .active with displayName := some (js "Dan the man") },
    { BlockedInvisible.sampleRow "other" .active with displayName := some (js "aidan") },
    BlockedInvisible.sampleRow "dan" .active],by decide⟩

theorem few_found : ∃ items,
    (search searchConfig (js " Dan")).run ApiWorld.handle
        (BlockedInvisible.sampleWorld.withRows fewNames) =
      some (BlockedInvisible.sampleWorld.withRows fewNames, .ok items) ∧
    TopResults fewNames (js "dan") items := by
  have hiff := search_top_iff searchConfig (BlockedInvisible.sampleWorld.withRows fewNames) rfl
    (js " Dan") (by decide)
  have hquery : toLowerCase (trim (js " Dan")) = js "dan" := by decide
  rw [hquery] at hiff
  exact hiff.mpr ⟨by decide,.inr (by decide)⟩ .byTag

/-- Fifty rows of other tags whose names have the query in them, and the row of its tag. -/
def manyNames : Identities where
  rows := BlockedInvisible.sampleRow "dan" .active :: (List.range 50).map (fun i =>
    { BlockedInvisible.sampleRow "x" .active with
      tag := js "user" ++ padded 2 i
      displayName := some (js "aidan") })
  unique := by decide

def manyWorld : ApiWorld := BlockedInvisible.sampleWorld.withRows manyNames

/-- The fifty come first, and the search finds nothing. -/
theorem exact_missed :
    (search searchConfig (js "dan")).run ApiWorld.handle (againstBest searchConfig (js "dan") manyWorld) =
      some (againstBest searchConfig (js "dan") manyWorld, .ok []) ∧
    ¬ TopResults manyNames (js "dan") [] := by
  have hquery : toLowerCase (trim (js "dan")) = js "dan" := by decide
  have hunranked : ∀ row ∈ matched searchConfig (js "dan") manyNames,
      row ∉ left searchConfig (js "dan") manyNames → ¬ rankOf row (js "dan") < 4 := by decide
  have hover : searchOverFetchLimit < (matched searchConfig (js "dan") manyNames).length := by
    decide
  have hnone : (fetched searchConfig (againstBest searchConfig (js "dan") manyWorld)
      (js "dan")).filter (fun row => rankOf row (js "dan") < 4) = [] := by
    apply List.filter_eq_nil_iff.mpr
    intro row hrow
    rw [decide_eq_true_eq]
    exact hunranked row (fetched_stored hrow) (fetched_not_left (w := manyWorld) hover hrow)
  have hlisted : listed (js "dan") (fetched searchConfig
      (againstBest searchConfig (js "dan") manyWorld) (js "dan")) = [] := by
    rw [listed, hnone, shortlist, List.mergeSort_nil, List.take_nil]
  have hrun := search_run searchConfig (againstBest searchConfig (js "dan") manyWorld) rfl (js "dan")
    (by decide) (by decide)
  rw [hquery, hlisted] at hrun
  refine ⟨hrun,fun h => ?_⟩
  obtain ⟨rows,hrows,htop⟩ := h
  have hfirst := htop.exactFirst (BlockedInvisible.sampleRow "dan" .active) List.mem_cons_self rfl rfl
  rw [List.map_eq_nil_iff.mp hrows.symm] at hfirst
  cases hfirst

end Tagwise.Proofs.SearchResults
