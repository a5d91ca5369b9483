import AegisGate.Config
import AegisGate.Http.RequestParser

/-!
# The route table

`RouteTable::Match` of `src/routing/RouteTable.cpp`: among the routes with the host of the
request whose prefix matches its path, the first with the longest prefix. A target outside the
origin form has no route.
-/

namespace AegisGate.Routing
open Http Option List

def textBytes (s : String) : Bytes := s.toUTF8.data.toList

def isOriginForm (target : Bytes) : Bool :=
  target.head? == some 47 && target.all fun c => !(c ≤ 32 || c == 127 || c == 35)

/-- `PathOnly`: the target before its first `?`. -/
def pathOnly (target : Bytes) : Bytes :=
  match find [63] target with
  | none => target
  | some query => target.take query

/-- `PrefixMatches`: the prefix ends at a boundary of the path. -/
def prefixMatches (path pathPrefix : Bytes) : Bool :=
  if pathPrefix = [47] then true
  else if !pathPrefix.isPrefixOf path then false
  else path.length == pathPrefix.length || pathPrefix.getLast? == some 47 ||
    path[pathPrefix.length]? == some 47

/-- Host and path prefix fit. -/
def routeMatches (host path : Bytes) (route : Config.Route) : Bool :=
  equalsIgnoreCase (textBytes route.host) host && prefixMatches path (textBytes route.pathPrefix)

/-- One turn of the loop: `best` is the index of the best route so far with the size of its
prefix. -/
def betterRoute (host path : Bytes) (best : Option (ℕ × ℕ)) (entry : Config.Route × ℕ) :
    Option (ℕ × ℕ) :=
  if !routeMatches host path entry.1 then best
  else
    let size := (textBytes entry.1.pathPrefix).length
    match best with
    | none => some (entry.2, size)
    | some (_, bestPrefixSize) => if bestPrefixSize < size then some (entry.2, size) else best

def prefixSize (entry : Config.Route × ℕ) : ℕ := (textBytes entry.1.pathPrefix).length

namespace RouteTable

/-- The route with the longest prefix that fits. -/
def match_ (config : Config) (host target : Bytes) : Option ℕ :=
  if !isOriginForm target then none
  else (config.routes.zipIdx.foldl (betterRoute host (pathOnly target)) none).map Prod.fst

/-- The loop keeps the first of the matching routes with the longest prefix. -/
lemma foldl_betterRoute (host path : Bytes) (entries : List (Config.Route × ℕ)) :
    entries.foldl (betterRoute host path) none =
      ((entries.filter fun entry => routeMatches host path entry.1).argmax prefixSize).map
        fun entry => (entry.2, prefixSize entry) := by
  induction entries using List.reverseRecOn with
  | nil => rfl
  | append_singleton entries entry ih =>
    rw [List.foldl_append, ih, List.filter_append, List.filter_singleton]
    cases hmatch : routeMatches host path entry.1 with
    | true =>
      rw [cond_true, List.argmax_concat]
      cases List.argmax prefixSize (entries.filter fun entry => routeMatches host path entry.1) with
      | none => simp [betterRoute, hmatch, prefixSize]
      | some best =>
        rw [List.foldl_cons, List.foldl_nil, betterRoute, hmatch]
        change (if prefixSize best < prefixSize entry then some (entry.2, prefixSize entry)
          else some (best.2, prefixSize best)) =
            Option.map _ (if prefixSize best < prefixSize entry then some entry else some best)
        split <;> rfl
    | false =>
      rw [cond_false, List.append_nil]
      simp [betterRoute, hmatch]

/-- A route that is returned has the host and the longest prefix of the path, and the target is in
origin form. -/
lemma match_some {config : Config} {host target : Bytes} {index : ℕ}
    (h : match_ config host target = some index) :
    isOriginForm target ∧ ∃ route, config.routes[index]? = some route ∧
      routeMatches host (pathOnly target) route ∧ ∀ other ∈ config.routes,
        routeMatches host (pathOnly target) other →
          (textBytes other.pathPrefix).length ≤ (textBytes route.pathPrefix).length := by
  obtain ⟨hform, h⟩ := Option.ite_none_left_eq_some.mp h
  rw [foldl_betterRoute, Option.map_map] at h
  obtain ⟨entry, hbest, rfl⟩ := Option.map_eq_some_iff.mp h
  obtain ⟨hmem, hmatch⟩ := List.mem_filter.mp (List.argmax_mem hbest)
  refine ⟨by simpa using hform, entry.1, List.mem_zipIdx_iff_getElem?.mp hmem, hmatch, ?_⟩
  intro other hother hmatches
  obtain ⟨i, hi⟩ := List.getElem?_of_mem hother
  have hentry : (other, i) ∈ config.routes.zipIdx := List.mem_zipIdx_iff_getElem?.mpr hi
  exact List.le_of_mem_argmax (f := prefixSize) (List.mem_filter.mpr ⟨hentry, hmatches⟩) hbest

lemma isSome_match {config : Config} {host target : Bytes} {route : Config.Route}
    (hform : isOriginForm target) (hroute : route ∈ config.routes)
    (hmatch : routeMatches host (pathOnly target) route) :
    (match_ config host target).isSome := by
  obtain ⟨i, hi⟩ := getElem?_of_mem hroute
  have hentry : (route, i) ∈ config.routes.zipIdx := mem_zipIdx_iff_getElem?.mpr hi
  rw [match_, if_neg (by simp [hform]), foldl_betterRoute, isSome_map, isSome_map,
    isSome_iff_ne_none, ne_eq, argmax_eq_none]
  exact ne_nil_of_mem (mem_filter.mpr ⟨hentry, hmatch⟩)

end RouteTable
end AegisGate.Routing
