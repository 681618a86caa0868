/-
# The routing table

Routing decisions by prefix (`internal/routing/types.go`): a list of routes replaces the table as
a whole or not at all, and a loop over the table finds the route for an address.
-/
import TrustIX.ConfigEvent
import TrustIX.Netip

namespace RouteTable

open Netip ConfigEvent Fallible

/-- `RouteKind`: none is given, or one of the four, or a name that is no kind. -/
inductive RouteKind where
  | unset
  | unicast
  | localHost
  | blackhole
  | reject
  | other (name : String)
  deriving DecidableEq

/-- What the table reads of a route. -/
structure Route where
  network : String
  owner : String
  nextHop : String
  metric : ℤ
  kind : RouteKind

structure CompiledRoute where
  route : Route
  network : Prefix

section Table

variable (parsePrefix : String → Except String Prefix)

/-- `core.Prefix.Parse`, by the `ParsePrefix` of `netip`. -/
def parse (raw : String) : Except String Prefix :=
  let raw := GoText.trimSpace raw
  if raw = "" then .error "prefix is required"
  else ((parsePrefix raw).mapError ("parse prefix " ++ raw.quote ++ ": " ++ ·)).map Prefix.masked

def validateID (required : Bool) (id : String) : Except String Unit :=
  if required || id ≠ "" then validateNonEmpty "ix id" id else .ok ()

/-- One round of the loop of `Replace`. -/
def compile (route : Route) : Except String CompiledRoute := do
  let network ← parse parsePrefix route.network
  let route := if route.kind = .unset then { route with kind := .unicast } else route
  match route.kind with
  | .other name =>
    .error ("route " ++ route.network.quote ++ " has unsupported kind " ++ name.quote)
  | kind => do
    validateID (kind = .unicast) route.nextHop
    validateID false route.owner
    if route.metric < 0 then .error ("route " ++ route.network.quote ++ " has negative metric")
    else .ok ⟨route, network⟩

/-- `Replace` writes the table once all its routes are compiled. -/
def replace (table : List CompiledRoute) (routes : List Route) :
    Except String Unit × List CompiledRoute :=
  match routes.mapM (compile parsePrefix) with
  | .error err => (.error err, table)
  | .ok compiled => (.ok (), compiled)

/-- The table after some calls of `Replace` on a new one. -/
def replaceAll (calls : List (List Route)) : List CompiledRoute :=
  calls.foldl (fun table routes => (replace parsePrefix table routes).2) []

/-- The routes of the last call that succeeded. -/
def inForce (calls : List (List Route)) : List Route :=
  (calls.filter fun routes => (replace parsePrefix [] routes).1.isOk).getLastD []

/-- **The table** holds the routes of the last call that succeeded, all of them. -/
theorem replaceAll_spec (calls : List (List Route)) :
    List.Forall₂ (fun route entry => compile parsePrefix route = .ok entry)
      (inForce parsePrefix calls) (replaceAll parsePrefix calls) := by
  induction calls using List.reverseRecOn with
  | nil => exact .nil
  | append_singleton calls routes ih =>
    unfold inForce replaceAll at ih ⊢
    rw [List.filter_append, List.foldl_append]
    cases hroutes : routes.mapM (compile parsePrefix) with
    | error err => simpa [replace, hroutes, Except.isOk, Except.toBool] using ih
    | ok compiled =>
      have htable := mapM_eq_ok.mp hroutes
      simpa [replace, hroutes, Except.isOk, Except.toBool] using htable

/-! ## The loop of a lookup -/

/-- The variables of the loop of `LookupFiltered`. -/
structure Best where
  index : ℤ
  bits : ℤ
  metric : ℤ

variable (dst : Addr) (included : Route → Bool)

def CompiledRoute.fits (entry : CompiledRoute) : Bool :=
  entry.network.contains dst && included entry.route

def step (best : Best) (item : CompiledRoute × ℕ) : Best :=
  if item.1.fits dst included ∧ ((item.1.network.bits : ℤ) > best.bits ∨
      (item.1.network.bits : ℤ) = best.bits ∧ item.1.route.metric < best.metric) then
    ⟨item.2, item.1.network.bits, item.1.route.metric⟩
  else best

def scan (table : List CompiledRoute) : Best :=
  table.zipIdx.foldl (step dst included) ⟨-1, -1, 2 ^ 63 - 1⟩

def lookupFiltered (table : List CompiledRoute) : Option CompiledRoute :=
  let best := scan dst included table
  if best.index < 0 then none else table[best.index.toNat]?

/-- One item goes before another: a longer prefix, then a smaller metric, then the earlier place. -/
def Precedes (item other : CompiledRoute × ℕ) : Prop :=
  other.1.network.bits < item.1.network.bits ∨ other.1.network.bits = item.1.network.bits ∧
    (item.1.route.metric < other.1.route.metric ∨
      item.1.route.metric = other.1.route.metric ∧ item.2 ≤ other.2)

/-- The item fits, and goes before all others that do. -/
def Wins (table : List CompiledRoute) (item : CompiledRoute × ℕ) : Prop :=
  item ∈ table.zipIdx ∧ item.1.fits dst included = true ∧
    ∀ other ∈ table.zipIdx, other.1.fits dst included = true → Precedes item other

variable {dst included}

/-- **The loop** holds the winner of what it has seen, or has seen no route that fits. -/
theorem scan_spec (table : List CompiledRoute) :
    (scan dst included table = ⟨-1, -1, 2 ^ 63 - 1⟩ ∧
      ∀ item ∈ table.zipIdx, item.1.fits dst included = false) ∨
    ∃ item, Wins dst included table item ∧
      scan dst included table = ⟨item.2, item.1.network.bits, item.1.route.metric⟩ := by
  induction table using List.reverseRecOn with
  | nil => exact .inl ⟨rfl, by simp⟩
  | append_singleton table last ih =>
    have hitems : (table ++ [last]).zipIdx = table.zipIdx ++ [(last, table.length)] := by
      simp [List.zipIdx_append]
    unfold scan Wins at *
    rw [hitems, List.foldl_append, List.foldl_cons, List.foldl_nil, step]
    simp only [List.mem_append, List.mem_singleton, or_imp, forall_and, forall_eq]
    split_ifs with hbetter
    · obtain ⟨hfits, hbetter⟩ := hbetter
      refine .inr ⟨(last, table.length), ⟨.inr rfl, hfits, ?_, ?_⟩, rfl⟩
      · intro other hother hfits'
        rcases ih with ⟨-, hnone⟩ | ⟨item, ⟨-, -, hwins⟩, hheld⟩
        · simp [hnone other hother] at hfits'
        · have hafter := hwins other hother hfits'
          simp only [hheld] at hbetter
          simp only [Precedes] at hafter ⊢
          omega
      · exact fun _ => .inr ⟨rfl, .inr ⟨rfl, le_rfl⟩⟩
    · rcases ih with ⟨hheld, hnone⟩ | ⟨item, ⟨hitem, hfits, hwins⟩, hheld⟩
      · refine .inl ⟨hheld, hnone, ?_⟩
        simp only [hheld] at hbetter
        by_contra hfits
        exact hbetter ⟨by simpa using hfits, .inl (by omega)⟩
      · -- the winner so far stays, and on a tie its place is the earlier one
        have hplace := List.snd_lt_of_mem_zipIdx hitem
        refine .inr ⟨item, ⟨.inl hitem, hfits, hwins, ?_⟩, hheld⟩
        intro hlast
        simp only [hheld] at hbetter
        have hworse := not_and.mp hbetter hlast
        simp only [Precedes]
        omega

/-- **The route for an address.**  After any calls of `Replace` the table holds the routes of the
last one that succeeded, and a lookup answers with the winner of those that hold the address and
that the filter lets through: the longest prefix, the smallest metric, the first place.  It
answers with none only if there are none. -/
theorem route_for (calls : List (List Route)) :
    let table := replaceAll parsePrefix calls
    List.Forall₂ (fun route entry => compile parsePrefix route = .ok entry)
        (inForce parsePrefix calls) table ∧
      ((lookupFiltered dst included table = none ∧
          ∀ item ∈ table.zipIdx, item.1.fits dst included = false) ∨
        ∃ item, lookupFiltered dst included table = some item.1 ∧
          Wins dst included table item) := by
  refine ⟨replaceAll_spec parsePrefix calls, ?_⟩
  unfold lookupFiltered
  rcases scan_spec (replaceAll parsePrefix calls) with ⟨hscan, hnone⟩ | ⟨item, hwins, hscan⟩
  · rw [hscan]
    exact .inl ⟨rfl, hnone⟩
  · rw [hscan]
    refine .inr ⟨item, ?_, hwins⟩
    show (if (item.2 : ℤ) < 0 then none else _[(item.2 : ℤ).toNat]?) = some item.1
    rw [if_neg (by omega), Int.toNat_natCast]
    exact List.mem_zipIdx_iff_getElem?.mp hwins.1

end Table

end RouteTable
