import AegisGate.Runtime.GenerationConstruction

/-!
# The route of a request

Of the routes for a host and a path `RouteTable::Match` takes the first with the longest prefix. In
a configuration that the loader accepts there is only one: prefixes of one path with the same
length are equal, and the loader refuses two routes with the same prefix and the same host up to
case.
-/

namespace AegisGate.Runtime
open Config Http Routing List

variable {config : Config} {host target path pathPrefix : Bytes} {route : Config.Route}

lemma head_pathOnly (h : target.head? = some 47) : (pathOnly target).head? = some 47 := by
  cases target with
  | nil => cases h
  | cons c target =>
    cases h
    rw [pathOnly]
    split
    · rfl
    · next query hquery =>
      obtain ⟨i, -, rfl⟩ := Option.map_eq_some_iff.mp hquery
      rfl

lemma isOriginForm_iff : isOriginForm target ↔
    target.head? = some 47 ∧ ∀ c ∈ target, ¬ (c ≤ 32 ∨ c = 127 ∨ c = 35) := by
  simp [isOriginForm, not_or, and_assoc]

/-- A prefix matches when it ends where a segment of the path does. -/
lemma prefixMatches_iff (hpath : path.head? = some 47) : prefixMatches path pathPrefix ↔
    pathPrefix <+: path ∧ (path = pathPrefix ∨ pathPrefix.getLast? = some 47 ∨
      path[pathPrefix.length]? = some 47) := by
  rw [prefixMatches]
  split
  · next hroot =>
    rw [hroot]
    cases path with
    | nil => cases hpath
    | cons c path =>
      cases hpath
      simp
  · by_cases hstarts : pathPrefix <+: path
    · have hlength : path.length = pathPrefix.length ↔ path = pathPrefix :=
        ⟨fun h => (hstarts.eq_of_length h.symm).symm, fun h => h ▸ rfl⟩
      simp [hstarts, hlength, or_assoc]
    · simp [hstarts]

/-- The routes for a host and a target: the host up to case, and a prefix of the path that ends at
a segment. -/
def Applies (host target : Bytes) (route : Config.Route) : Prop :=
  lowerAscii (textBytes route.host) = lowerAscii host ∧
    textBytes route.pathPrefix <+: pathOnly target ∧
    (pathOnly target = textBytes route.pathPrefix ∨
      (textBytes route.pathPrefix).getLast? = some 47 ∨
      (pathOnly target)[(textBytes route.pathPrefix).length]? = some 47)

/-- A route that applies, with the longest prefix of those that do. -/
structure Chosen (config : Config) (host target : Bytes) (route : Config.Route) : Prop where
  mem : route ∈ config.routes
  applies : Applies host target route
  longest : ∀ other ∈ config.routes, Applies host target other →
    (textBytes other.pathPrefix).length ≤ (textBytes route.pathPrefix).length

lemma routeMatches_iff (h : target.head? = some 47) (route : Config.Route) :
    routeMatches host (pathOnly target) route ↔ Applies host target route := by
  rw [routeMatches, Bool.and_eq_true, prefixMatches_iff (head_pathOnly h), equalsIgnoreCase,
    beq_iff_eq, Applies]

lemma Chosen.unique (hkeys : (config.routes.map Route.matchKey).Nodup) {other : Config.Route}
    (h : Chosen config host target route) (hother : Chosen config host target other) :
    other = route := by
  refine inj_on_of_nodup_map hkeys hother.mem h.mem ?_
  have hlength := (h.longest other hother.mem hother.applies).antisymm
    (hother.longest route h.mem h.applies)
  rw [Route.matchKey, Route.matchKey, h.applies.1, hother.applies.1,
    (prefix_of_prefix_length_le hother.applies.2.1 h.applies.2.1 hlength.le).eq_of_length hlength]

lemma Chosen.perm {config' : Config} (hperm : config'.routes.Perm config.routes)
    (h : Chosen config host target route) : Chosen config' host target route :=
  ⟨hperm.mem_iff.mpr h.mem, h.applies,
    fun other hother => h.longest other (hperm.mem_iff.mp hother)⟩

/-- The route that `Match` returns. -/
def routeFor (config : Config) (host target : Bytes) : Option Config.Route :=
  (RouteTable.match_ config host target).bind fun index => config.routes[index]?

lemma routeFor_eq_some_iff (hkeys : (config.routes.map Route.matchKey).Nodup) :
    routeFor config host target = some route ↔
      isOriginForm target ∧ Chosen config host target route := by
  have hchosen {route : Config.Route} (h : routeFor config host target = some route) :
      isOriginForm target ∧ Chosen config host target route := by
    obtain ⟨index, hmatch, hroute⟩ := Option.bind_eq_some_iff.mp h
    obtain ⟨hform, route', hroute', hmatches, hlongest⟩ := RouteTable.match_some hmatch
    cases hroute.symm.trans hroute'
    simp only [routeMatches_iff (isOriginForm_iff.mp hform).1] at hmatches hlongest
    exact ⟨hform, mem_of_getElem? hroute, hmatches, hlongest⟩
  refine ⟨hchosen, fun h => ?_⟩
  obtain ⟨index, hmatch⟩ := Option.isSome_iff_exists.mp (RouteTable.isSome_match h.1 h.2.mem
    ((routeMatches_iff (isOriginForm_iff.mp h.1).1 route).mpr h.2.applies))
  obtain ⟨-, found, hfound, -⟩ := RouteTable.match_some hmatch
  have hroute : routeFor config host target = some found := by
    rw [routeFor, hmatch]
    exact hfound
  rw [hroute, h.2.unique hkeys (hchosen hroute).2]

/-- **The route of a request.** For an accepted configuration: a route is returned exactly for
targets in origin form to which one applies; it is the one with the longest prefix; there is no
second such route; and neither the order of the routes nor the query matters. -/
theorem routeFor_spec {document : Except String Node} (hload : loadFromYaml document = .ok config)
    (host target : Bytes) :
    (∀ route, routeFor config host target = some route ↔ (target.head? = some 47 ∧
      ∀ c ∈ target, ¬ (c ≤ 32 ∨ c = 127 ∨ c = 35)) ∧ Chosen config host target route) ∧
    (routeFor config host target = none ↔ ¬ ((target.head? = some 47 ∧
      ∀ c ∈ target, ¬ (c ≤ 32 ∨ c = 127 ∨ c = 35)) ∧
        ∃ route ∈ config.routes, Applies host target route)) ∧
    (∀ route other, Chosen config host target route → Chosen config host target other →
      other = route) ∧
    (∀ config' : Config, config'.routes.Perm config.routes →
      routeFor config' host target = routeFor config host target) ∧
    ∀ target', isOriginForm target' = isOriginForm target → pathOnly target' = pathOnly target →
      routeFor config host target' = routeFor config host target := by
  have hkeys := (accepted_of_loadFromYaml hload).matchKeys
  refine ⟨fun route => ?_, ⟨?_, ?_⟩, fun route other h => h.unique hkeys, fun config' hperm => ?_,
    fun target' hform hpath => ?_⟩
  · rw [← isOriginForm_iff]
    exact routeFor_eq_some_iff hkeys
  · rw [← isOriginForm_iff]
    rintro hnone ⟨hform, route, hroute, happlies⟩
    obtain ⟨index, hmatch⟩ := Option.isSome_iff_exists.mp (RouteTable.isSome_match hform hroute
      ((routeMatches_iff (isOriginForm_iff.mp hform).1 route).mpr happlies))
    obtain ⟨-, found, hfound, -⟩ := RouteTable.match_some hmatch
    rw [routeFor, hmatch, Option.bind_some, hfound] at hnone
    cases hnone
  · intro hnot
    refine Option.eq_none_iff_forall_ne_some.mpr fun route hroute => hnot ?_
    obtain ⟨hform, hchosen⟩ := (routeFor_eq_some_iff hkeys).mp hroute
    exact ⟨isOriginForm_iff.mp hform, route, hchosen.mem, hchosen.applies⟩
  · refine Option.ext fun route => ?_
    rw [routeFor_eq_some_iff (((hperm.map _).nodup_iff).mpr hkeys), routeFor_eq_some_iff hkeys]
    exact and_congr_right fun _ => ⟨Chosen.perm hperm.symm, Chosen.perm hperm⟩
  · rw [routeFor, routeFor, RouteTable.match_, RouteTable.match_, hform, hpath]

/-- Two routes for one host; the prefix of one is a prefix of the other's. -/
def overlappingConfiguration : Config where
  routes := [plainRoute "all" "/" 64, plainRoute "api" "/a" 64]

/-- The longer prefix is taken, also when it comes first. -/
theorem routeFor_overlapping : routeFor overlappingConfiguration (ascii "Example.COM")
        (ascii "/a/b?c") = some (plainRoute "api" "/a" 64) ∧
      routeFor { routes := overlappingConfiguration.routes.reverse } (ascii "Example.COM")
        (ascii "/a/b?c") = some (plainRoute "api" "/a" 64) := by
  have hload : loadFromYaml (.ok (.map [(.scalar "routes", .sequence
      [routeNode "all" "/" "64" [], routeNode "api" "/a" "64" []])])) =
      .ok overlappingConfiguration := by rfl
  obtain ⟨hsome, -, -, hperm, -⟩ := routeFor_spec hload (ascii "Example.COM") (ascii "/a/b?c")
  have hchosen : Chosen overlappingConfiguration (ascii "Example.COM") (ascii "/a/b?c")
      (plainRoute "api" "/a" 64) := by
    refine ⟨mem_cons_of_mem _ mem_cons_self, (routeMatches_iff rfl _).mp (by decide +kernel), ?_⟩
    intro other hother _
    rcases mem_pair.mp hother with rfl | rfl <;> decide +kernel
  have hroute := (hsome _).mpr ⟨isOriginForm_iff.mp (by decide +kernel), hchosen⟩
  exact ⟨hroute, (hperm _ (reverse_perm _)).trans hroute⟩

end AegisGate.Runtime
