import ExertGrpc.KebabCase
import ExertGrpc.RegExp

/-! # The routes of the front ends

Both front ends make a route for every page file: the part of its path that a pattern
captures, in kebab case, is the path of the route, and with `.html` its alias.  The first
one names its routes by it, too, and registers every component file under it.

So two files get the same URLs when their captured parts have the same kebab case, and a
page gets those of the fixed route when that is empty or `index`.  There are no other
ways for two routes to clash (`OwnNames`).

Under which keys the files are listed is up to the bundlers.  webpack lists a file under
its path and also without an extension that it resolves, and leaves out what begins with a
dot; it keeps the keys that the pattern matches, and that is all that is relied on
(`ContextKeys`).
-/
namespace ExertGrpc
open RegExp

/-! ## The patterns -/

/-- `.`: every unit that does not end a line. -/
def isDot (u : UInt16) : Bool := !(u == 10 || u == 13 || u == 0x2028 || u == 0x2029)

/-- The characters of a pattern that stand for themselves. -/
def tests (s : String) : List (UInt16 → Bool) := (literal s).map fun c u => u == c

/-- `/.+?Page\.vue$/`. -/
def pagesContext : Pattern UInt16 :=
  ⟨.many isDot 1 true :: (tests "Page.vue").map .one, true⟩

/-- `/.\/(.+?)Page.vue$/`, with the second dot not escaped. -/
def pagePattern : Pattern UInt16 :=
  ⟨(isDot :: tests "/").map .one ++ .many isDot 1 true ::
    (tests "Page" ++ isDot :: tests "vue").map .one, true⟩

/-- `/.\/pages\/(.*)Page\.vue/`. -/
def globPattern : Pattern UInt16 :=
  ⟨(isDot :: tests "/pages/").map .one ++ .many isDot 0 false ::
    (tests "Page.vue").map .one, false⟩

/-- `/.+?\.vue$/`. -/
def componentsContext : Pattern UInt16 :=
  ⟨.many isDot 1 true :: (tests ".vue").map .one, true⟩

/-- `/.\/(.+?).vue$/`. -/
def componentPattern : Pattern UInt16 :=
  ⟨(isDot :: tests "/").map .one ++ .many isDot 1 true ::
    (isDot :: tests "vue").map .one, true⟩

/-- What `require.context(directory, true, pattern)` gives: some keys, all of which the
pattern matches. -/
structure ContextKeys (pattern : Pattern UInt16) where
  keys : List Text
  matched : ∀ p ∈ keys, pattern.test p = true

/-- The keys that a pattern matches, each behind what it captures. -/
def captures (pattern : Pattern UInt16) (keys : List Text) : List (Text × Text) :=
  keys.filterMap fun p => (pattern.exec p).map fun m => (m, p)

/-! ## The routes -/

/-- The component of a route: one that the code names, or the module of a page file. -/
inductive PageComponent where
  | named (path : Text)
  | page (key : Text)
deriving DecidableEq, Repr

/-- A route record; `aliasPath` is its `alias`. -/
structure RouteRecord where
  path : Text
  name : Option Text
  aliasPath : Option Text
  component : PageComponent
deriving DecidableEq, Repr

section Code
variable (kebabCase : Text → Text)

/-- The fixed route of `parseRoutes`. -/
def indexRoute : RouteRecord where
  path := literal "/"
  name := some (literal "index")
  aliasPath := some (literal "/index.html")
  component := .named (literal "@/pages/IndexPage.vue")

/-- The route of a page, `n` being its kebab case. -/
def pageRoute (n p : Text) : RouteRecord where
  path := literal "/" ++ n
  name := some (n ++ literal "-page")
  aliasPath := some (literal "/" ++ n ++ literal ".html")
  component := .page p

/-- `parseRoutes()`. -/
def parseRoutes (requireComponent : ContextKeys pagesContext) : List RouteRecord :=
  indexRoute :: (captures pagePattern requireComponent.keys).map fun c =>
    pageRoute (kebabCase c.1) c.2

/-- The fixed routes of `createMyDemoRouter`. -/
def homeRoute : RouteRecord where
  path := literal "/"
  name := none
  aliasPath := some (literal "/index.html")
  component := .named (literal "./pages/Index.vue")

def notFoundRoute : RouteRecord where
  path := literal "/:pathMatch(.*)*"
  name := none
  aliasPath := none
  component := .named (literal "./pages/NotFound.vue")

/-- The routes of `createMyDemoRouter()`, for the keys of
`import.meta.glob('./pages/**/*.vue')`. -/
def createMyDemoRouter (pages : List Text) : List RouteRecord :=
  homeRoute :: notFoundRoute :: (captures globPattern pages).map fun c =>
    { pageRoute (kebabCase c.1) c.2 with name := none }

/-- `install(Vue)`: the names and files that are registered, in order. -/
def install (requireComponent : ContextKeys componentsContext) : List (Text × Text) :=
  (captures componentPattern requireComponent.keys).map fun c => (kebabCase c.1, c.2)

end Code

/-! ## What one expects of them -/

/-- The URLs of a route. -/
def RouteRecord.urls (r : RouteRecord) : List Text := r.path :: r.aliasPath.toList

/-- No two routes share a URL. -/
def UrlsApart (routes : List RouteRecord) : Prop :=
  routes.Pairwise fun r r' => ∀ u ∈ r.urls, u ∉ r'.urls

/-- What is expected of the routes of the first front end: every page has one, no two of
them share a URL, and no two a name. -/
structure PagesApart (keys : List Text) (routes : List RouteRecord) : Prop where
  routed : ∀ p ∈ keys, ∃ r ∈ routes, r.component = .page p
  urls : UrlsApart routes
  names : routes.Pairwise fun r r' => r.name ≠ r'.name

/-- What is expected of the registered components: every file is, under a name of its
own. -/
structure ComponentsApart (keys : List Text) (registered : List (Text × Text)) : Prop where
  all : ∀ p ∈ keys, ∃ n, (n, p) ∈ registered
  names : (registered.map Prod.fst).Nodup

/-- The captured parts have different kebab cases. -/
def KebabsApart (kebabCase : Text → Text) (cs : List (Text × Text)) : Prop :=
  cs.Pairwise fun c c' => kebabCase c.1 ≠ kebabCase c'.1

/-- They have different kebab cases, and none has that of the fixed route. -/
structure OwnNames (kebabCase : Text → Text) (cs : List (Text × Text)) : Prop where
  apart : KebabsApart kebabCase cs
  not_fixed : ∀ c ∈ cs, kebabCase c.1 ≠ [] ∧ kebabCase c.1 ≠ literal "index"

/-! ## When two routes share a URL -/

/-- The URLs of a page. -/
def pageUrls (n : Text) : List Text := [literal "/" ++ n, literal "/" ++ n ++ literal ".html"]

section Urls
variable {n m : Text}

/-- A path without a dot is not an alias. -/
theorem path_ne_alias (hn : 46 ∉ n) : literal "/" ++ n ≠ literal "/" ++ m ++ literal ".html" := by
  intro h
  rw [List.append_assoc] at h
  apply hn
  rw [List.append_cancel_left h]
  exact List.mem_append_right m (by decide)

theorem pageUrls_apart (hn : 46 ∉ n) (hm : 46 ∉ m) :
    (∀ u ∈ pageUrls n, u ∉ pageUrls m) ↔ n ≠ m := by
  constructor
  · rintro h rfl
    exact h _ (List.mem_cons_self ..) (List.mem_cons_self ..)
  · intro hne u hu hu'
    simp only [pageUrls, List.mem_cons, List.not_mem_nil, or_false] at hu hu'
    rcases hu with rfl | rfl <;> rcases hu' with h | h
    · exact hne (List.append_cancel_left h)
    · exact path_ne_alias hn h
    · exact path_ne_alias hm h.symm
    · exact hne (List.append_cancel_left (List.append_cancel_right h))

/-- A page shares a URL with the fixed route when it has no name of its own, or that of the
fixed route. -/
theorem fixedUrls_apart (hn : 46 ∉ n) :
    (∀ u ∈ [literal "/", literal "/index.html"], u ∉ pageUrls n) ↔
      n ≠ [] ∧ n ≠ literal "index" := by
  have hhome : literal "/" = literal "/" ++ [] := (List.append_nil _).symm
  have hindex : literal "/index.html" = literal "/" ++ literal "index" ++ literal ".html" := by
    decide
  constructor
  · intro h
    constructor
    · rintro rfl
      exact h _ (List.mem_cons_self ..) (by simp [pageUrls])
    · rintro rfl
      exact h _ (List.mem_cons_of_mem _ (List.mem_cons_self ..)) (by simp [pageUrls, hindex])
  · rintro ⟨hnil, hne⟩ u hu hu'
    simp only [pageUrls, List.mem_cons, List.not_mem_nil, or_false] at hu hu'
    rcases hu with rfl | rfl <;> rcases hu' with h | h
    · exact hnil (List.append_cancel_left (hhome.symm.trans h)).symm
    · exact path_ne_alias List.not_mem_nil (hhome.symm.trans h)
    · exact path_ne_alias hn (h.symm.trans hindex)
    · exact hne (List.append_cancel_left (List.append_cancel_right (hindex.symm.trans h))).symm

/-- No page has the path that matches everything. -/
theorem notFoundUrl_apart (hn : 58 ∉ n) : literal "/:pathMatch(.*)*" ∉ pageUrls n := by
  have hpath : literal "/:pathMatch(.*)*" = literal "/" ++ literal ":pathMatch(.*)*" := by decide
  intro h
  simp only [pageUrls, List.mem_cons, List.not_mem_nil, or_false] at h
  rcases h with h | h
  · apply hn
    rw [← List.append_cancel_left (hpath.symm.trans h)]
    decide
  · -- they end differently
    have hlast := congrArg List.getLast? h
    rw [List.getLast?_append_of_ne_nil _ (by decide)] at hlast
    exact absurd hlast (by decide)

end Urls

section Routes
variable {plain : Text → Prop} {kebabCase : Text → Text} (hk : KebabCaseSpec plain kebabCase)
include hk

theorem dot_notMem {s : Text} (hs : plain s) : 46 ∉ kebabCase s := by
  intro h
  rcases hk.units s hs 46 h with h | h
  · exact absurd h (by decide)
  · exact absurd h (by decide)

theorem colon_notMem {s : Text} (hs : plain s) : 58 ∉ kebabCase s := by
  intro h
  rcases hk.units s hs 58 h with h | h
  · exact absurd h (by decide)
  · exact absurd h (by decide)

section Captured
variable {cs : List (Text × Text)} (hplain : ∀ c ∈ cs, plain c.1)
  {route : Text × Text → RouteRecord} (hurls : ∀ c, (route c).urls = pageUrls (kebabCase c.1))
include hplain hurls

/-- The routes of the pages share a URL exactly when two captured parts have the same
kebab case. -/
theorem urlsApart_pages : UrlsApart (cs.map route) ↔ KebabsApart kebabCase cs := by
  unfold UrlsApart KebabsApart
  rw [List.pairwise_map]
  refine List.Pairwise.iff_of_mem fun {c c'} hc hc' => ?_
  rw [hurls, hurls]
  exact pageUrls_apart (dot_notMem hk (hplain c hc)) (dot_notMem hk (hplain c' hc'))

/-- With the fixed route before them. -/
theorem urlsApart_cons_iff {fixed : RouteRecord}
    (hfixed : fixed.urls = [literal "/", literal "/index.html"]) :
    UrlsApart (fixed :: cs.map route) ↔ OwnNames kebabCase cs := by
  have hpages := urlsApart_pages hk hplain hurls
  have hclash : (∀ r ∈ cs.map route, ∀ u ∈ fixed.urls, u ∉ r.urls) ↔
      ∀ c ∈ cs, kebabCase c.1 ≠ [] ∧ kebabCase c.1 ≠ literal "index" := by
    rw [List.forall_mem_map]
    refine forall₂_congr fun c hc => ?_
    rw [hfixed, hurls]
    exact fixedUrls_apart (dot_notMem hk (hplain c hc))
  unfold UrlsApart at hpages ⊢
  rw [List.pairwise_cons, hclash, hpages]
  exact ⟨fun h => ⟨h.2, h.1⟩, fun h => ⟨h.not_fixed, h.apart⟩⟩

end Captured

omit hk in
/-- The names of the routes add nothing to that. -/
theorem names_apart {cs : List (Text × Text)} (h : KebabsApart kebabCase cs) :
    (indexRoute :: cs.map fun c => pageRoute (kebabCase c.1) c.2).Pairwise
      fun r r' => r.name ≠ r'.name := by
  rw [List.pairwise_cons, List.forall_mem_map, List.pairwise_map]
  constructor
  · intro c _ heq
    -- `index` does not end in `-page`
    have hlen := congrArg List.getLast? (Option.some.inj heq)
    rw [List.getLast?_append_of_ne_nil _ (by decide)] at hlen
    exact absurd hlen (by decide)
  · refine h.imp fun hne heq => hne ?_
    exact List.append_cancel_right (Option.some.inj heq)

omit hk in
theorem mem_captures {pattern : Pattern UInt16} {keys : List Text} {m p : Text} :
    (m, p) ∈ captures pattern keys ↔ p ∈ keys ∧ pattern.exec p = some m := by
  unfold captures
  rw [List.mem_filterMap]
  constructor
  · rintro ⟨p', hp', h⟩
    obtain ⟨m', hm', heq⟩ := Option.map_eq_some_iff.mp h
    obtain ⟨rfl, rfl⟩ := Prod.mk.inj heq
    exact ⟨hp', hm'⟩
  · rintro ⟨hp, hm⟩
    exact ⟨p, hp, by rw [hm]; rfl⟩

/-! ## The three lists -/

theorem parseRoutes_apart_iff (requireComponent : ContextKeys pagesContext)
    (hplain : ∀ c ∈ captures pagePattern requireComponent.keys, plain c.1) :
    PagesApart requireComponent.keys (parseRoutes kebabCase requireComponent) ↔
      (∀ p ∈ requireComponent.keys, ∃ m, pagePattern.exec p = some m) ∧
      OwnNames kebabCase (captures pagePattern requireComponent.keys) := by
  have hurls : UrlsApart (parseRoutes kebabCase requireComponent) ↔
      OwnNames kebabCase (captures pagePattern requireComponent.keys) :=
    urlsApart_cons_iff hk hplain (fun _ => rfl) rfl
  constructor
  · intro h
    refine ⟨fun p hp => ?_, hurls.mp h.urls⟩
    obtain ⟨r, hr, hcomponent⟩ := h.routed p hp
    rcases List.mem_cons.mp hr with rfl | hr
    · cases hcomponent
    · obtain ⟨⟨m, p'⟩, hc, rfl⟩ := List.mem_map.mp hr
      cases hcomponent
      exact ⟨m, (mem_captures.mp hc).2⟩
  · rintro ⟨hall, hown⟩
    refine ⟨fun p hp => ?_, hurls.mpr hown, names_apart hown.apart⟩
    obtain ⟨m, hm⟩ := hall p hp
    have hmem : (m, p) ∈ captures pagePattern requireComponent.keys := mem_captures.mpr ⟨hp, hm⟩
    exact ⟨_, List.mem_cons_of_mem _ (List.mem_map_of_mem hmem), rfl⟩

theorem createMyDemoRouter_apart_iff (pages : List Text)
    (hplain : ∀ c ∈ captures globPattern pages, plain c.1) :
    UrlsApart (createMyDemoRouter kebabCase pages) ↔
      OwnNames kebabCase (captures globPattern pages) := by
  have hhome : UrlsApart (homeRoute :: (captures globPattern pages).map fun c =>
      { pageRoute (kebabCase c.1) c.2 with name := none }) ↔
        OwnNames kebabCase (captures globPattern pages) :=
    urlsApart_cons_iff hk hplain (fun _ => rfl) rfl
  rw [← hhome, createMyDemoRouter]
  unfold UrlsApart
  rw [List.pairwise_cons, List.pairwise_cons, List.pairwise_cons, List.forall_mem_cons]
  -- the route that matches everything shares its path with none
  have hnotFound : ∀ u ∈ homeRoute.urls, u ∉ notFoundRoute.urls := by decide
  constructor
  · rintro ⟨⟨-, hfixed⟩, -, hpages⟩
    exact ⟨hfixed, hpages⟩
  · rintro ⟨hfixed, hpages⟩
    refine ⟨⟨hnotFound, hfixed⟩, ?_, hpages⟩
    rw [List.forall_mem_map]
    intro c hc u hu
    rw [List.mem_singleton.mp hu]
    exact notFoundUrl_apart (colon_notMem hk (hplain c hc))

omit hk in
theorem install_apart_iff (requireComponent : ContextKeys componentsContext) :
    ComponentsApart requireComponent.keys (install kebabCase requireComponent) ↔
      (∀ p ∈ requireComponent.keys, ∃ m, componentPattern.exec p = some m) ∧
      KebabsApart kebabCase (captures componentPattern requireComponent.keys) := by
  have hnames : ((install kebabCase requireComponent).map Prod.fst).Nodup ↔
      KebabsApart kebabCase (captures componentPattern requireComponent.keys) := by
    unfold install List.Nodup KebabsApart
    rw [List.map_map, List.pairwise_map]
    rfl
  constructor
  · rintro ⟨hall, hnodup⟩
    refine ⟨fun p hp => ?_, hnames.mp hnodup⟩
    obtain ⟨n, hn⟩ := hall p hp
    obtain ⟨⟨m, p'⟩, hc, heq⟩ := List.mem_map.mp hn
    obtain ⟨rfl, rfl⟩ := Prod.mk.inj heq
    exact ⟨m, (mem_captures.mp hc).2⟩
  · rintro ⟨hall, hapart⟩
    refine ⟨fun p hp => ?_, hnames.mpr hapart⟩
    obtain ⟨m, hm⟩ := hall p hp
    exact ⟨kebabCase m, List.mem_map_of_mem (mem_captures.mpr ⟨hp, hm⟩)⟩

/-- **Every page gets URLs of its own, and every component a name, exactly when the
captured parts of the keys have different kebab cases**, no page's is empty or `index`,
and no key is passed over: for all keys that match the pattern they are listed by, and
every function that makes kebab cases of their captured parts. -/
theorem routes_apart_iff :
    (∀ requireComponent : ContextKeys pagesContext,
      (∀ c ∈ captures pagePattern requireComponent.keys, plain c.1) →
      (PagesApart requireComponent.keys (parseRoutes kebabCase requireComponent) ↔
        (∀ p ∈ requireComponent.keys, ∃ m, pagePattern.exec p = some m) ∧
        OwnNames kebabCase (captures pagePattern requireComponent.keys))) ∧
    (∀ pages, (∀ c ∈ captures globPattern pages, plain c.1) →
      (UrlsApart (createMyDemoRouter kebabCase pages) ↔
        OwnNames kebabCase (captures globPattern pages))) ∧
    (∀ requireComponent : ContextKeys componentsContext,
      ComponentsApart requireComponent.keys (install kebabCase requireComponent) ↔
        (∀ p ∈ requireComponent.keys, ∃ m, componentPattern.exec p = some m) ∧
        KebabsApart kebabCase (captures componentPattern requireComponent.keys)) :=
  ⟨parseRoutes_apart_iff hk, createMyDemoRouter_apart_iff hk, install_apart_iff⟩

end Routes

/-! ## What is captured -/

theorem forall₂_tests (s : String) :
    List.Forall₂ (fun test u => test u = true) (tests s) (literal s) := by
  rw [tests, List.forall₂_map_left_iff, List.forall₂_same]
  exact fun u _ => beq_self_eq_true u

/-- Of a file name in one line the patterns capture what stands before the ending. -/
theorem exec_stem {stem : Text} (hstem : ∀ u ∈ stem, isDot u = true) :
    (stem ≠ [] → pagePattern.exec (literal "./" ++ (stem ++ literal "Page.vue")) = some stem) ∧
    globPattern.exec (literal "./pages/" ++ (stem ++ literal "Page.vue")) = some stem ∧
    (stem ≠ [] → componentPattern.exec (literal "./" ++ (stem ++ literal ".vue")) = some stem) := by
  have hslash : List.Forall₂ (fun test u => test u = true) (isDot :: tests "/") (literal "./") :=
    .cons (by decide) (forall₂_tests "/")
  refine ⟨fun hne => ?_, ?_, fun hne => ?_⟩
  · exact exec_eq_some_stem hslash hstem (List.length_pos_iff.mpr hne)
      (List.rel_append (forall₂_tests "Page") (.cons (by decide) (forall₂_tests "vue"))) fun _ => rfl
  · exact exec_eq_some_stem (.cons (by decide) (forall₂_tests "/pages/")) hstem (Nat.zero_le _)
      (forall₂_tests "Page.vue") nofun
  · exact exec_eq_some_stem hslash hstem (List.length_pos_iff.mpr hne)
      (.cons (by decide) (forall₂_tests "vue")) fun _ => rfl

section Names
variable {plain : Text → Prop} {kebabCase : Text → Text} {stems : List Text} {file : Text → Text}
  {pattern : Pattern UInt16}

/-- The keys of a stem: a page of either front end, and a component. -/
def pageFile (stem : Text) : Text := literal "./" ++ (stem ++ literal "Page.vue")
def globFile (stem : Text) : Text := literal "./pages/" ++ (stem ++ literal "Page.vue")
def componentFile (stem : Text) : Text := literal "./" ++ (stem ++ literal ".vue")

theorem captures_map (h : ∀ s ∈ stems, pattern.exec (file s) = some s) :
    captures pattern (stems.map file) = stems.map fun s => (s, file s) := by
  unfold captures
  rw [List.filterMap_map, ← List.filterMap_eq_map]
  refine List.filterMap_congr fun s hs => ?_
  show (pattern.exec (file s)).map _ = _
  rw [h s hs]
  rfl

/-- A path below the directory is a key when it has the ending. -/
theorem context_test {ending : String} {stem : Text} (hstem : ∀ u ∈ stem, isDot u = true) :
    Pattern.test ⟨.many isDot 1 true :: (tests ending).map .one, true⟩
      (literal "./" ++ (stem ++ literal ending)) = true := by
  have hslash : ∀ u ∈ literal "./", isDot u = true := List.all_eq_true.mp (by decide)
  have hfront : ∀ u ∈ literal "./" ++ stem, isDot u = true := by
    intro u hu
    rcases List.mem_append.mp hu with hu | hu
    · exact hslash u hu
    · exact hstem u hu
  have hpos : 1 ≤ (literal "./" ++ stem).length := by
    rw [List.length_append]
    exact Nat.le_add_right_of_le (by decide)
  rw [Pattern.test, ← List.append_assoc,
    exec_of_matchHere (matchHere_many hfront hpos (forall₂_tests ending) fun _ => rfl)]
  rfl

/-- The keys of a list of stems in one line. -/
def pageKeys (stems : List Text) (hline : ∀ s ∈ stems, ∀ u ∈ s, isDot u = true) :
    ContextKeys pagesContext where
  keys := stems.map pageFile
  matched := List.forall_mem_map.mpr fun s hs => context_test (hline s hs)

def componentKeys (stems : List Text) (hline : ∀ s ∈ stems, ∀ u ∈ s, isDot u = true) :
    ContextKeys componentsContext where
  keys := stems.map componentFile
  matched := List.forall_mem_map.mpr fun s hs => context_test (hline s hs)

theorem kebabsApart_map :
    KebabsApart kebabCase (stems.map fun s => (s, file s)) ↔ (stems.map kebabCase).Nodup := by
  unfold KebabsApart List.Nodup
  rw [List.pairwise_map, List.pairwise_map]

theorem ownNames_map : OwnNames kebabCase (stems.map fun s => (s, file s)) ↔
    (stems.map kebabCase).Nodup ∧
      ∀ s ∈ stems, kebabCase s ≠ [] ∧ kebabCase s ≠ literal "index" := by
  rw [← kebabsApart_map]
  constructor
  · intro h
    exact ⟨h.apart, List.forall_mem_map.mp h.not_fixed⟩
  · intro h
    exact ⟨h.1, List.forall_mem_map.mpr h.2⟩

/-- **In terms of the names in the keys**, which are in one line: what comes before the
ending has a kebab case of its own, and for a page none that the fixed route has. -/
theorem stems_apart_iff (hk : KebabCaseSpec plain kebabCase) (hplain : ∀ s ∈ stems, plain s)
    (hline : ∀ s ∈ stems, ∀ u ∈ s, isDot u = true) (hne : ∀ s ∈ stems, s ≠ []) :
    (PagesApart (stems.map pageFile) (parseRoutes kebabCase (pageKeys stems hline)) ↔
      (stems.map kebabCase).Nodup ∧
        ∀ s ∈ stems, kebabCase s ≠ [] ∧ kebabCase s ≠ literal "index") ∧
    (UrlsApart (createMyDemoRouter kebabCase (stems.map globFile)) ↔
      (stems.map kebabCase).Nodup ∧
        ∀ s ∈ stems, kebabCase s ≠ [] ∧ kebabCase s ≠ literal "index") ∧
    (ComponentsApart (stems.map componentFile) (install kebabCase (componentKeys stems hline)) ↔
      (stems.map kebabCase).Nodup) := by
  have hexec : ∀ s ∈ stems, pagePattern.exec (pageFile s) = some s :=
    fun s hs => (exec_stem (hline s hs)).1 (hne s hs)
  have hglob : ∀ s ∈ stems, globPattern.exec (globFile s) = some s :=
    fun s hs => (exec_stem (hline s hs)).2.1
  have hcomponent : ∀ s ∈ stems, componentPattern.exec (componentFile s) = some s :=
    fun s hs => (exec_stem (hline s hs)).2.2 (hne s hs)
  refine ⟨?_, ?_, ?_⟩
  · have hcaptures : captures pagePattern (pageKeys stems hline).keys = _ := captures_map hexec
    have hpages := parseRoutes_apart_iff hk (pageKeys stems hline)
      (by rw [hcaptures]; exact List.forall_mem_map.mpr hplain)
    rw [hcaptures, ownNames_map] at hpages
    exact hpages.trans (and_iff_right (List.forall_mem_map.mpr fun s hs => ⟨s, hexec s hs⟩))
  · have hcaptures : captures globPattern (stems.map globFile) = _ := captures_map hglob
    rw [createMyDemoRouter_apart_iff hk _
      (by rw [hcaptures]; exact List.forall_mem_map.mpr hplain), hcaptures, ownNames_map]
  · have hcaptures : captures componentPattern (componentKeys stems hline).keys = _ :=
      captures_map hcomponent
    have hcomponents := @install_apart_iff kebabCase (componentKeys stems hline)
    rw [hcaptures, kebabsApart_map] at hcomponents
    exact hcomponents.trans
      (and_iff_right (List.forall_mem_map.mpr fun s hs => ⟨s, hcomponent s hs⟩))

end Names

/-! ## Keys that clash -/

/-- Kebab case as the words of a text make it. -/
def demoKebabCase (s : Text) : Text := joinWords (wordsOf s)

theorem demoKebabCase_spec : KebabCaseSpec (fun _ => True) demoKebabCase := joinWords_spec

/-- A page, and a component, of the first front end. -/
def demoPage : ContextKeys pagesContext := ⟨[literal "./aspnet/DemoPage.vue"], by decide +kernel⟩
def demoComponent : ContextKeys componentsContext :=
  ⟨[literal "./DemoTable.vue"], by decide +kernel⟩

theorem routes_apart_demo :
    (PagesApart demoPage.keys (parseRoutes demoKebabCase demoPage) ↔
      (∀ p ∈ demoPage.keys, ∃ m, pagePattern.exec p = some m) ∧
      OwnNames demoKebabCase (captures pagePattern demoPage.keys)) ∧
    (UrlsApart (createMyDemoRouter demoKebabCase [literal "./pages/GrpcPage.vue"]) ↔
      OwnNames demoKebabCase (captures globPattern [literal "./pages/GrpcPage.vue"])) ∧
    (ComponentsApart demoComponent.keys (install demoKebabCase demoComponent) ↔
      (∀ p ∈ demoComponent.keys, ∃ m, componentPattern.exec p = some m) ∧
      KebabsApart demoKebabCase (captures componentPattern demoComponent.keys)) :=
  ⟨(routes_apart_iff demoKebabCase_spec).1 _ fun _ _ => trivial,
    (routes_apart_iff demoKebabCase_spec).2.1 _ fun _ _ => trivial,
    (routes_apart_iff demoKebabCase_spec).2.2 _⟩

/-- Two pages, or two components, with the same words in their names. -/
def demoPages : ContextKeys pagesContext :=
  ⟨[literal "./FooBarPage.vue", literal "./foo-barPage.vue"], by decide +kernel⟩
def demoGlobPages : List Text :=
  [literal "./pages/FooBarPage.vue", literal "./pages/foo-barPage.vue"]
def demoComponents : ContextKeys componentsContext :=
  ⟨[literal "./FooBar.vue", literal "./foo/bar.vue"], by decide +kernel⟩

/-- The one page of the first front end that every project has. -/
def indexPages : ContextKeys pagesContext := ⟨[literal "./IndexPage.vue"], by decide +kernel⟩

/-- **`FooBar` and `foo-bar`** have the same URLs in both front ends, and so have two
components the same name; and **`IndexPage.vue`** has the alias of the fixed route. -/
theorem routes_not_apart : KebabCaseSpec (fun _ => True) demoKebabCase ∧
    (demoPages.keys.Nodup ∧ ¬ PagesApart demoPages.keys (parseRoutes demoKebabCase demoPages)) ∧
    (indexPages.keys.Nodup ∧
      ¬ PagesApart indexPages.keys (parseRoutes demoKebabCase indexPages)) ∧
    (demoGlobPages.Nodup ∧ ¬ UrlsApart (createMyDemoRouter demoKebabCase demoGlobPages)) ∧
    (demoComponents.keys.Nodup ∧
      ¬ ComponentsApart demoComponents.keys (install demoKebabCase demoComponents)) := by
  refine ⟨demoKebabCase_spec, ⟨by decide +kernel, fun h => ?_⟩, ⟨by decide +kernel, fun h => ?_⟩,
    ⟨by decide +kernel, fun h => ?_⟩, by decide +kernel, fun h => ?_⟩
  · exact absurd h.urls (by unfold UrlsApart; decide +kernel)
  · exact absurd h.urls (by unfold UrlsApart; decide +kernel)
  · exact absurd h (by unfold UrlsApart; decide +kernel)
  · exact absurd h.names (by decide +kernel)

end ExertGrpc
