import ExertGrpc.PageRoutes

/-! # Which files are pages

The first front end makes a route for a key of its directory of pages when it ends in
`Page.vue` and something stands before that.  The second one wants no end of the key and
nothing before it: `Page.vue` may be anywhere, and the last place counts.

So when the bundler of the second lists every page that the one of the first does, the
second has all the pages of the first, under the same URLs.  It has more of them exactly
when `Page.vue` is in a path that the first does not list, or is the whole of it.
-/
namespace ExertGrpc
open RegExp

/-- The key of a page, given by its path in the directory of the pages, in
`require.context('@/pages/', ..)` and in `import.meta.glob('./pages/**/*.vue')`. -/
def pageKey (rel : Text) : Text := literal "./" ++ rel
def globKey (rel : Text) : Text := literal "./pages/" ++ rel

/-- What is captured of it in the first front end and in the second. -/
def pageStem (rel : Text) : Option Text := pagePattern.exec (pageKey rel)
def globStem (rel : Text) : Option Text := globPattern.exec (globKey rel)

section Urls
variable (kebabCase : Text → Text)

/-- The URLs of the pages, without those of the fixed routes. -/
def parsedUrls (requireComponent : ContextKeys pagesContext) : List (List Text) :=
  ((parseRoutes kebabCase requireComponent).drop 1).map RouteRecord.urls
def globbedUrls (pages : List Text) : List (List Text) :=
  ((createMyDemoRouter kebabCase pages).drop 2).map RouteRecord.urls

theorem parsedUrls_eq {requireComponent : ContextKeys pagesContext} {rels : List Text}
    (hkeys : requireComponent.keys = rels.map pageKey) :
    parsedUrls kebabCase requireComponent =
      (rels.filterMap pageStem).map fun m => pageUrls (kebabCase m) := by
  unfold parsedUrls parseRoutes captures
  rw [List.drop_succ_cons, List.drop_zero, hkeys, List.map_map, List.filterMap_map,
    List.map_filterMap, List.map_filterMap]
  refine List.filterMap_congr fun rel _ => ?_
  dsimp only [Function.comp, pageStem]
  rw [Option.map_map]
  rfl

theorem globbedUrls_eq (rels : List Text) :
    globbedUrls kebabCase (rels.map globKey) =
      (rels.filterMap globStem).map fun m => pageUrls (kebabCase m) := by
  unfold globbedUrls createMyDemoRouter captures
  rw [List.drop_succ_cons, List.drop_succ_cons, List.drop_zero, List.map_map, List.filterMap_map,
    List.map_filterMap, List.map_filterMap]
  refine List.filterMap_congr fun rel _ => ?_
  dsimp only [Function.comp, globStem]
  rw [Option.map_map]
  rfl

end Urls

/-! ## What is captured -/

section Stems
variable {rel stem : Text}

theorem forall₂_tests_iff {s : String} {after : Text} :
    List.Forall₂ (fun test u => test u = true) (tests s) after ↔ after = literal s := by
  constructor
  · intro h
    rw [tests, List.forall₂_map_left_iff] at h
    have heq : List.Forall₂ Eq (literal s) after := h.imp fun _ _ hu => (beq_iff_eq.mp hu).symm
    rw [List.forall₂_eq_eq_eq] at heq
    exact heq.symm
  · rintro rfl
    exact forall₂_tests s

theorem isDot_slash : List.Forall₂ (fun test u => test u = true) (isDot :: tests "/")
    (literal "./") := .cons (by decide) (forall₂_tests "/")

/-- What a row of items of one unit matches, at the end of a text or anywhere. -/
theorem matchHere_ones_isSome {atEnd : Bool} {ts : List (UInt16 → Bool)} {after : Text} :
    (matchHere atEnd (ts.map Item.one) after).isSome = true ↔
      ∃ ending rest, after = ending ++ rest ∧
        List.Forall₂ (fun test u => test u = true) ts ending ∧ (atEnd = true → rest = []) := by
  rw [Option.isSome_iff_exists]
  constructor
  · rintro ⟨c, h⟩
    rw [← List.append_nil (ts.map Item.one)] at h
    obtain ⟨ending, rest, hafter, hending, hrest⟩ := matchHere_ones_eq_some.mp h
    refine ⟨ending, rest, hafter, hending, fun hend => ?_⟩
    rcases rest with _ | ⟨u, rest⟩
    · rfl
    · rw [hend] at hrest
      cases hrest
  · rintro ⟨ending, rest, hafter, hending, hrest⟩
    refine ⟨[], ?_⟩
    rw [← List.append_nil (ts.map Item.one)]
    refine matchHere_ones_eq_some.mpr ⟨ending, rest, hafter, hending, ?_⟩
    cases atEnd with
    | false => rfl
    | true =>
      rw [hrest rfl]
      rfl

/-- The path of a key that the context matches ends in `Page.vue`. -/
theorem ends_of_test (hline : ∀ u ∈ rel, isDot u = true)
    (htest : pagesContext.test (pageKey rel) = true) : literal "Page.vue" <:+ rel := by
  have hkey : ∀ u ∈ pageKey rel, isDot u = true := by
    intro u hu
    rcases List.mem_append.mp hu with hu | hu
    · exact List.all_eq_true.mp (by decide) u hu
    · exact hline u hu
  have hhere : pagesContext.exec ([] ++ pageKey rel) =
      matchHere true pagesContext.items (pageKey rel) := exec_before .nil hkey
  rw [Pattern.test, ← List.nil_append (pageKey rel), hhere, Option.isSome_iff_exists] at htest
  obtain ⟨front, hfront⟩ := htest
  obtain ⟨last, hlast, -, -, hends⟩ := matchHere_many_sound hfront
  obtain ⟨ending, rest, hending, htests, hrest⟩ := matchHere_ones_isSome.mp hends
  rw [hrest rfl, List.append_nil, forall₂_tests_iff.mp htests] at hending
  rw [hending] at hlast
  -- it does not begin inside the `./` of the key
  have hslash : literal "./" = [46, 47] := by decide
  have hpage : literal "Page.vue" = 80 :: literal "age.vue" := by decide
  rw [pageKey, hslash, hpage] at hlast
  rcases front with _ | ⟨u, _ | ⟨v, stem⟩⟩
  · exact absurd (List.cons.inj hlast).1 (by decide)
  · exact absurd (List.cons.inj (List.cons.inj hlast).2).1 (by decide)
  · rw [hpage]
    exact ⟨stem, (List.cons.inj (List.cons.inj hlast).2).2.symm⟩

/-- The first front end: what stands before `Page.vue` at the end. -/
theorem pageStem_eq_some (hline : ∀ u ∈ rel, isDot u = true)
    (htest : pagesContext.test (pageKey rel) = true) :
    pageStem rel = some stem ↔ stem ≠ [] ∧ rel = stem ++ literal "Page.vue" := by
  constructor
  · intro h
    obtain ⟨front, hfront⟩ := ends_of_test hline htest
    have hhere : pagePattern.exec (literal "./" ++ rel) =
        matchHere true (.many isDot 1 true ::
          (tests "Page" ++ isDot :: tests "vue").map .one) rel := exec_before isDot_slash hline
    rw [pageStem, pageKey, hhere] at h
    obtain ⟨after, hafter, hleast, -, hmatch⟩ := matchHere_many_sound h
    obtain ⟨ending, rest, hending, htests, hrest⟩ := matchHere_ones_isSome.mp hmatch
    rw [hrest rfl, List.append_nil] at hending
    -- both patterns match endings of eight units of the same text
    have hlen : after.length = (literal "Page.vue").length := by
      rw [hending, ← htests.length_eq]
      decide
    refine ⟨List.length_pos_iff.mp hleast, ?_⟩
    rw [hafter, (List.append_inj' (hafter.symm.trans hfront.symm) hlen).2]
  · rintro ⟨hne, rfl⟩
    exact (exec_stem fun u hu => hline u (List.mem_append_left _ hu)).1 hne

/-- Of the keys of the first only the one of a page `Page.vue` gets no route. -/
theorem pageStem_isSome (hline : ∀ u ∈ rel, isDot u = true)
    (htest : pagesContext.test (pageKey rel) = true) :
    (pageStem rel).isSome = true ↔ rel ≠ literal "Page.vue" := by
  rw [Option.isSome_iff_exists]
  constructor
  · rintro ⟨stem, h⟩ heq
    obtain ⟨hne, hrel⟩ := (pageStem_eq_some hline htest).mp h
    exact hne (List.append_left_eq_self.mp (hrel.symm.trans heq))
  · intro hne
    obtain ⟨stem, hstem⟩ := ends_of_test hline htest
    refine ⟨stem, (pageStem_eq_some hline htest).mpr ⟨fun hnil => hne ?_, hstem.symm⟩⟩
    rw [← hstem, hnil, List.nil_append]

theorem globStem_eq (hline : ∀ u ∈ rel, isDot u = true) :
    globStem rel = matchHere false (.many isDot 0 false :: (tests "Page.vue").map .one) rel :=
  exec_before (.cons (by decide) (forall₂_tests "/pages/")) hline

theorem begins_of_globStem (hline : ∀ u ∈ rel, isDot u = true) (h : globStem rel = some stem) :
    stem ++ literal "Page.vue" <+: rel := by
  rw [globStem_eq hline] at h
  obtain ⟨after, hafter, -, -, hmatch⟩ := matchHere_many_sound h
  obtain ⟨ending, rest, hending, htests, -⟩ := matchHere_ones_isSome.mp hmatch
  refine ⟨rest, ?_⟩
  rw [hafter, hending, forall₂_tests_iff.mp htests, List.append_assoc]

section Begins
variable (hline : ∀ u ∈ rel, isDot u = true) (hbegins : stem ++ literal "Page.vue" <+: rel)
include hline hbegins

/-- `Page.vue` is behind a group that can be taken. -/
theorem taken_of_begins : ∃ after, rel = stem ++ after ∧ (∀ u ∈ stem, isDot u = true) ∧
    (matchHere false ((tests "Page.vue").map Item.one) after).isSome = true := by
  obtain ⟨rest, hrest⟩ := hbegins
  rw [List.append_assoc] at hrest
  refine ⟨literal "Page.vue" ++ rest, hrest.symm, fun u hu => hline u ?_, ?_⟩
  · rw [← hrest]
    exact List.mem_append_left _ hu
  · exact matchHere_ones_isSome.mpr ⟨_, rest, rfl, forall₂_tests _, fun h => by cases h⟩

theorem isSome_globStem_of_begins : (globStem rel).isSome = true := by
  obtain ⟨after, hrel, hstem, hafter⟩ := taken_of_begins hline hbegins
  rw [globStem_eq hline, hrel]
  exact isSome_matchHere_many (Nat.zero_le _) hstem hafter

theorem length_le_of_globStem {longest : Text} (h : globStem rel = some longest) :
    stem.length ≤ longest.length := by
  obtain ⟨after, hrel, hstem, hafter⟩ := taken_of_begins hline hbegins
  rw [globStem_eq hline, hrel] at h
  exact length_le_of_matchHere_many (Nat.zero_le _) hstem hafter h

end Begins

/-- The second: what stands before the last `Page.vue`. -/
theorem globStem_eq_some (hline : ∀ u ∈ rel, isDot u = true) :
    globStem rel = some stem ↔ stem ++ literal "Page.vue" <+: rel ∧
      ∀ stem', stem' ++ literal "Page.vue" <+: rel → stem'.length ≤ stem.length := by
  constructor
  · intro h
    exact ⟨begins_of_globStem hline h, fun stem' h' => length_le_of_globStem hline h' h⟩
  · rintro ⟨hbegins, hlast⟩
    obtain ⟨c, hc⟩ := Option.isSome_iff_exists.mp (isSome_globStem_of_begins hline hbegins)
    have hcBegins := begins_of_globStem hline hc
    have hlen : c.length = stem.length :=
      Nat.le_antisymm (hlast c hcBegins) (length_le_of_globStem hline hbegins hc)
    -- both stand at the beginning of the path
    have hcTake := List.prefix_iff_eq_take.mp ((List.prefix_append _ _).trans hcBegins)
    have hstemTake := List.prefix_iff_eq_take.mp ((List.prefix_append _ _).trans hbegins)
    rw [hc, hcTake, hstemTake, hlen]

/-- A page of the first front end is one of the second. -/
theorem globStem_of_pageStem (hline : ∀ u ∈ rel, isDot u = true)
    (htest : pagesContext.test (pageKey rel) = true) (h : pageStem rel = some stem) :
    globStem rel = some stem := by
  obtain ⟨-, rfl⟩ := (pageStem_eq_some hline htest).mp h
  exact (exec_stem fun u hu => hline u (List.mem_append_left _ hu)).2.1

theorem globStem_isSome (hline : ∀ u ∈ rel, isDot u = true) :
    (globStem rel).isSome = true ↔ literal "Page.vue" <:+: rel := by
  constructor
  · intro h
    obtain ⟨stem, hstem⟩ := Option.isSome_iff_exists.mp h
    obtain ⟨rest, hrest⟩ := begins_of_globStem hline hstem
    exact ⟨stem, rest, hrest⟩
  · rintro ⟨stem, rest, hrest⟩
    exact isSome_globStem_of_begins hline ⟨rest, hrest⟩

end Stems

/-! ## The two lists -/

section Lists
variable {α β : Type} {f g : α → Option β} {shared l : List α}

/-- A function that is defined where another one is, on a list with more members, makes
at least the same list. -/
theorem filterMap_sublist (hsub : shared.Sublist l)
    (h : ∀ a ∈ shared, ∀ b, f a = some b → g a = some b) :
    (shared.filterMap f).Sublist (l.filterMap g) := by
  induction hsub with
  | slnil => exact .slnil
  | @cons shared l a _ ih =>
    rw [List.filterMap_cons]
    cases g a with
    | none => exact ih h
    | some b => exact (ih h).cons b
  | @cons_cons shared l a _ ih =>
    have hrest := ih fun a ha => h a (List.mem_cons_of_mem _ ha)
    cases hf : f a with
    | none =>
      rw [List.filterMap_cons_none hf, List.filterMap_cons]
      cases g a with
      | none => exact hrest
      | some b => exact hrest.cons b
    | some b =>
      rw [List.filterMap_cons_some hf, List.filterMap_cons_some (h a List.mem_cons_self b hf)]
      exact hrest.cons_cons b

theorem ne_cons_of_sublist {l₁ l₂ : List β} (h : l₁.Sublist l₂) (b : β) : l₁ ≠ b :: l₂ := by
  intro heq
  have hlen := h.length_le
  rw [heq, List.length_cons] at hlen
  omega

/-- The same one, exactly when it is defined nowhere else. -/
theorem filterMap_eq_iff (hsub : shared.Sublist l) (hnodup : l.Nodup)
    (h : ∀ a ∈ shared, ∀ b, f a = some b → g a = some b) :
    shared.filterMap f = l.filterMap g ↔
      ∀ a ∈ l, (g a).isSome = true → a ∈ shared ∧ (f a).isSome = true := by
  induction hsub with
  | slnil => exact ⟨fun _ _ ha => absurd ha List.not_mem_nil, fun _ => rfl⟩
  | @cons shared l a hsub ih =>
    obtain ⟨ha, hnodup⟩ := List.nodup_cons.mp hnodup
    have hshared : a ∉ shared := fun hmem => ha (hsub.subset hmem)
    rw [List.forall_mem_cons, ← ih hnodup h]
    cases hg : g a with
    | none =>
      rw [List.filterMap_cons_none hg]
      exact (and_iff_right fun hsome => by cases hsome).symm
    | some b =>
      rw [List.filterMap_cons_some hg]
      have hne := ne_cons_of_sublist (filterMap_sublist hsub h) b
      exact ⟨fun heq => absurd heq hne, fun hdefined => absurd (hdefined.1 rfl).1 hshared⟩
  | @cons_cons shared l a hsub ih =>
    obtain ⟨ha, hnodup⟩ := List.nodup_cons.mp hnodup
    have hshared : ∀ a ∈ shared, ∀ b, f a = some b → g a = some b :=
      fun a ha => h a (List.mem_cons_of_mem _ ha)
    -- `a` is not in the rest of the list
    have hrest : (∀ c ∈ l, (g c).isSome = true → c ∈ a :: shared ∧ (f c).isSome = true) ↔
        ∀ c ∈ l, (g c).isSome = true → c ∈ shared ∧ (f c).isSome = true := by
      refine forall₂_congr fun c hc => imp_congr_right fun _ => and_congr_left fun _ => ?_
      rw [List.mem_cons]
      exact or_iff_right fun hca => ha (hca ▸ hc)
    rw [List.forall_mem_cons, hrest, ← ih hnodup hshared]
    cases hf : f a with
    | some b =>
      rw [List.filterMap_cons_some hf, List.filterMap_cons_some (h a List.mem_cons_self b hf),
        List.cons_inj_right]
      exact (and_iff_right fun _ => ⟨List.mem_cons_self, rfl⟩).symm
    | none =>
      rw [List.filterMap_cons_none hf]
      cases hg : g a with
      | none =>
        rw [List.filterMap_cons_none hg]
        exact (and_iff_right fun hsome => by cases hsome).symm
      | some b =>
        rw [List.filterMap_cons_some hg]
        have hne := ne_cons_of_sublist (filterMap_sublist hsub hshared) b
        exact ⟨fun heq => absurd heq hne, fun hdefined => absurd (hdefined.1 rfl).2 (by simp)⟩

end Lists

/-- **Which keys are pages, and under which URLs**, for any keys of paths in one line.  The
first front end captures what stands before `Page.vue` at the end, the second what stands
before the last `Page.vue`.  When the keys of the first are, by their paths, among those of
the second, the second has every page of the first, in the same order and under the same
URLs; and it has no other page exactly when every path with `Page.vue` in it is the one of a
key of the first, and is more than that. -/
theorem pages_agree (kebabCase : Text → Text) {requireComponent : ContextKeys pagesContext}
    {shared rels : List Text} (hkeys : requireComponent.keys = shared.map pageKey)
    (hsub : shared.Sublist rels) (hnodup : rels.Nodup)
    (hline : ∀ rel ∈ rels, ∀ u ∈ rel, isDot u = true) :
    (∀ rel ∈ shared, ∀ stem, pageStem rel = some stem ↔
      stem ≠ [] ∧ rel = stem ++ literal "Page.vue") ∧
    (∀ rel ∈ rels, ∀ stem, globStem rel = some stem ↔ stem ++ literal "Page.vue" <+: rel ∧
      ∀ stem', stem' ++ literal "Page.vue" <+: rel → stem'.length ≤ stem.length) ∧
    (parsedUrls kebabCase requireComponent).Sublist (globbedUrls kebabCase (rels.map globKey)) ∧
    (parsedUrls kebabCase requireComponent = globbedUrls kebabCase (rels.map globKey) ↔
      ∀ rel ∈ rels, literal "Page.vue" <:+: rel → rel ∈ shared ∧ rel ≠ literal "Page.vue") := by
  have htest : ∀ rel ∈ shared, pagesContext.test (pageKey rel) = true := by
    have hmatched := requireComponent.matched
    rw [hkeys, List.forall_mem_map] at hmatched
    exact hmatched
  have hsharedLine : ∀ rel ∈ shared, ∀ u ∈ rel, isDot u = true :=
    fun rel hrel => hline rel (hsub.subset hrel)
  have hextends : ∀ rel ∈ shared, ∀ stem, pageStem rel = some stem → globStem rel = some stem :=
    fun rel hrel stem h => globStem_of_pageStem (hsharedLine rel hrel) (htest rel hrel) h
  have hsublist := filterMap_sublist hsub hextends
  rw [parsedUrls_eq kebabCase hkeys, globbedUrls_eq]
  refine ⟨fun rel hrel stem => pageStem_eq_some (hsharedLine rel hrel) (htest rel hrel),
    fun rel hrel stem => globStem_eq_some (hline rel hrel), hsublist.map _, ?_⟩
  have hsame : (shared.filterMap pageStem).map (fun m => pageUrls (kebabCase m)) =
      (rels.filterMap globStem).map (fun m => pageUrls (kebabCase m)) ↔
        shared.filterMap pageStem = rels.filterMap globStem := by
    refine ⟨fun h => hsublist.eq_of_length ?_, fun h => by rw [h]⟩
    have hlen := congrArg List.length h
    rwa [List.length_map, List.length_map] at hlen
  rw [hsame, filterMap_eq_iff hsub hnodup hextends]
  refine forall₂_congr fun rel hrel => ?_
  rw [globStem_isSome (hline rel hrel)]
  refine imp_congr_right fun _ => and_congr_right fun hmem => ?_
  exact pageStem_isSome (hline rel hrel) (htest rel hmem)

/-- The pages of the repository, and a backup of one that only the second lists. -/
def demoShared : List Text :=
  [literal "IndexPage.vue", literal "aspnet/DemoPage.vue", literal "employee/ListingPage.vue"]
def demoRels : List Text := demoShared ++ [literal "OldPage.vue.bak.vue"]

theorem pages_agree_demo :
    ∃ requireComponent : ContextKeys pagesContext,
      requireComponent.keys = demoShared.map pageKey ∧
      (∀ rel ∈ demoShared, ∀ stem, pageStem rel = some stem ↔
        stem ≠ [] ∧ rel = stem ++ literal "Page.vue") ∧
      (∀ rel ∈ demoRels, ∀ stem, globStem rel = some stem ↔
        stem ++ literal "Page.vue" <+: rel ∧
          ∀ stem', stem' ++ literal "Page.vue" <+: rel → stem'.length ≤ stem.length) ∧
      (parsedUrls demoKebabCase requireComponent).Sublist
        (globbedUrls demoKebabCase (demoRels.map globKey)) ∧
      (parsedUrls demoKebabCase requireComponent =
          globbedUrls demoKebabCase (demoRels.map globKey) ↔
        ∀ rel ∈ demoRels, literal "Page.vue" <:+: rel →
          rel ∈ demoShared ∧ rel ≠ literal "Page.vue") := by
  have hmatched : (demoShared.map pageKey).all pagesContext.test = true := by decide +kernel
  have hline : demoRels.all (fun rel => rel.all isDot) = true := by decide +kernel
  have hnodup : demoRels.Nodup := by decide +kernel
  exact ⟨⟨demoShared.map pageKey, List.all_eq_true.mp hmatched⟩, rfl,
    pages_agree demoKebabCase rfl (List.sublist_append_left _ _) hnodup fun rel hrel =>
      List.all_eq_true.mp (List.all_eq_true.mp hline rel hrel)⟩

end ExertGrpc
