/-
# What a signature spells

A signature is one text for a row of addresses, and reading it back means cutting it wherever the
separator stands.  The separator might stand where none was put: inside an address, or across the
border of one, as in `a-` before `>b`.  It never does the second.  A cut from left to right takes
the first separator that it meets, and no separator can begin inside an address and end behind it,
because its two letters differ (`piecesOf_append`).  So only addresses that hold the separator
themselves are in the way, and where none does (`Trace.Separable`) a signature spells its row:

* `piecesOf_intercalate`: what was joined is cut into the same pieces;
* `pieces_signature`:     a signature is cut into the addresses and wildcards that it was made of;
* `signature_identifies_route`: so traces, and all members of a group, share a signature just when
  they share the row.
-/
import PathAtlas.Proofs.Route.Groups

namespace PathAtlas

namespace Route

/-! ## 1. Cutting a text -/

/-- The pieces of a text between the separators, which are found from left to right. -/
def piecesOf : List Char → List (List Char)
  | [] => [[]]
  | [c] => [[c]]
  | c :: d :: rest =>
    if c = '-' ∧ d = '>' then [] :: piecesOf rest
    else (piecesOf (d :: rest)).modifyHead (c :: ·)

/-- A signature, cut at its separators. -/
def pieces (signature : String) : List String := (piecesOf signature.toList).map String.ofList

/-- A text without the separator is one piece. -/
theorem piecesOf_of_not_infix {xs : List Char} (h : ¬ separator.toList <:+: xs) :
    piecesOf xs = [xs] := by
  induction xs with
  | nil => rfl
  | cons c xs ih =>
    have hrest : ¬ separator.toList <:+: xs := fun hin => h (List.infix_cons hin)
    cases xs with
    | nil => rfl
    | cons d xs =>
      have hhere : ¬ (c = '-' ∧ d = '>') := by
        rintro ⟨rfl, rfl⟩
        exact h ⟨[], xs, rfl⟩
      rw [piecesOf, if_neg hhere, ih hrest]
      rfl

/-- **The first separator that is met** is the one behind a piece that holds none. -/
theorem piecesOf_append {xs : List Char} (h : ¬ separator.toList <:+: xs) (rest : List Char) :
    piecesOf (xs ++ separator.toList ++ rest) = xs :: piecesOf rest := by
  induction xs with
  | nil => rfl
  | cons c xs ih =>
    have hrest : ¬ separator.toList <:+: xs := fun hin => h (List.infix_cons hin)
    cases xs with
    | nil =>
      -- the letter before the separator and the first letter of the separator are no separator
      have hborder : ¬ (c = '-' ∧ '-' = '>') := fun hc => absurd hc.2 (by decide)
      exact (if_neg hborder).trans (congrArg (List.modifyHead (c :: ·)) (ih hrest))
    | cons d xs =>
      have hhere : ¬ (c = '-' ∧ d = '>') := by
        rintro ⟨rfl, rfl⟩
        exact h ⟨[], xs, rfl⟩
      exact (if_neg hhere).trans (congrArg (List.modifyHead (c :: ·)) (ih hrest))

/-- **What was joined is cut into the same pieces.** -/
theorem piecesOf_intercalate {xss : List (List Char)} (hne : xss ≠ [])
    (h : ∀ xs ∈ xss, ¬ separator.toList <:+: xs) :
    piecesOf (separator.toList.intercalate xss) = xss := by
  induction xss with
  | nil => exact absurd rfl hne
  | cons xs xss ih =>
    obtain ⟨hfirst, hrest⟩ := List.forall_mem_cons.mp h
    cases xss with
    | nil => rw [List.intercalate_singleton, piecesOf_of_not_infix hfirst]
    | cons ys xss =>
      rw [List.intercalate_cons_cons, piecesOf_append hfirst, ih (List.cons_ne_nil _ _) hrest]

/-- A signature is cut into the identifiers that it was made of. -/
theorem pieces_signature {identifiers : List String} (hne : identifiers ≠ [])
    (h : ∀ s ∈ identifiers, ¬ separator.toList <:+: s.toList) :
    pieces (signature identifiers) = identifiers := by
  rw [pieces, signature, String.toList_intercalate, piecesOf_intercalate]
  · simp
  · simpa using hne
  · intro xs hxs
    obtain ⟨s, hs, rfl⟩ := List.mem_map.mp hxs
    exact h s hs

end Route

/-! ## 2. Traces -/

namespace Trace

variable {α : Type}

/-- No address along a trace holds the separator. -/
def Separable (trace : Trace α) : Prop :=
  ∀ hop ∈ trace.hops, ∀ address ∈ hop.address, ¬ Route.separator.toList <:+: address.toList

instance (trace : Trace α) : Decidable trace.Separable :=
  inferInstanceAs (Decidable (∀ hop ∈ trace.hops, ∀ address ∈ hop.address, ¬ _))

/-- A step is known by its address or by the wildcard, and the wildcard holds no separator. -/
theorem Separable.identifiers {trace : Trace α} (h : trace.Separable) :
    ∀ s ∈ trace.identifiers, ¬ Route.separator.toList <:+: s.toList := by
  intro s hs
  obtain ⟨hop, hhop, rfl⟩ := List.mem_map.mp hs
  unfold Hop.identifier
  cases haddress : hop.address with
  | none => exact of_decide_eq_false rfl
  | some address => exact h hop hhop address haddress

theorem Separable.pieces_signature {trace : Trace α} (h : trace.Separable)
    (hne : trace.hops ≠ []) : Route.pieces trace.signature = trace.identifiers :=
  Route.pieces_signature (by simpa [Trace.identifiers] using hne) h.identifiers

end Trace

/-! ## 3. Main result -/

namespace Route

variable {α : Type} [Scalar α]

/-- **A signature identifies a route.**  Where no address holds the separator, a signature is cut
into the row of addresses and wildcards that it stands for, two traces with hops have one signature
just when they have one row, and all members of a group have the row that the group shows. -/
theorem signature_identifies_route :
    (∀ t : Trace α, t.Separable → t.hops ≠ [] → pieces t.signature = t.identifiers) ∧
    (∀ t t' : Trace α, t.Separable → t'.Separable → t.hops ≠ [] → t'.hops ≠ [] →
      (t.signature = t'.signature ↔ t.identifiers = t'.identifiers)) ∧
    ∀ traces : List (Trace α), (∀ t ∈ traces, t.Separable) → ∀ group ∈ groups traces,
      (∃ first, group = .ofMembers first (ofRoute group.signature (Trace.timeline traces))) ∧
        ∀ t ∈ ofRoute group.signature (Trace.timeline traces), t.identifiers = group.hops := by
  have hsame : ∀ t t' : Trace α, t.Separable → t'.Separable → t.hops ≠ [] → t'.hops ≠ [] →
      (t.signature = t'.signature ↔ t.identifiers = t'.identifiers) := by
    intro t t' ht ht' hne hne'
    constructor
    · intro h
      rw [← ht.pieces_signature hne, ← ht'.pieces_signature hne', h]
    · exact fun h => congrArg signature h
  refine ⟨fun t ht hne => ht.pieces_signature hne, hsame, fun traces htraces group hgroup => ?_⟩
  obtain ⟨front, first, back, hsplit, -, rfl⟩ := mem_groups hgroup
  refine ⟨⟨first, rfl⟩, fun t ht => ?_⟩
  -- what holds of all traces with hops holds of the members and of the trace that came first
  have hmem : ∀ t ∈ Trace.timeline traces, t.Separable ∧ t.hops ≠ [] := by
    intro t ht
    obtain ⟨hsorted, hhops⟩ := List.mem_filter.mp ht
    have htrace := (Order.ascending_perm Trace.time traces).mem_iff.mp hsorted
    exact ⟨htraces t htrace, by simpa [Trace.hasHops] using hhops⟩
  have hfirst : first.trace ∈ Trace.timeline traces := by
    rw [← map_trace_steps none (Trace.timeline traces), hsplit]
    simp
  obtain ⟨htime, hroute⟩ := List.mem_filter.mp ht
  obtain ⟨hsep, hne⟩ := hmem t htime
  obtain ⟨hsep', hne'⟩ := hmem first.trace hfirst
  exact (hsame t first.trace hsep hsep' hne hne').mp (beq_iff_eq.mp hroute)

/-- A trace with a silent step between two addresses that end and begin with letters of the
separator. -/
def bordering : Trace Rat :=
  { sighting "eth0-" 1 with
    hops := (sighting "eth0-" 1).hops ++
      { ttl := .whole 2, hosts := [], loss := 100, average := none, best := none, worst := none,
        jitter := none, sent := .whole 1, received := .whole 0 } :: (sighting ">eth1" 1).hops }

theorem signature_identifies_route_bordering :
    bordering.Separable ∧ bordering.signature = "eth0-->*->>eth1" ∧
      pieces bordering.signature = ["eth0-", "*", ">eth1"] ∧
      (bordering.signature = (sighting "eth0" 2).signature
        ↔ bordering.identifiers = (sighting "eth0" 2).identifiers) ∧
      ∀ group ∈ groups [sighting "eth0" 2, bordering, { bordering with time := 3 }],
        ∀ t ∈ ofRoute group.signature
            (Trace.timeline [sighting "eth0" 2, bordering, { bordering with time := 3 }]),
          t.identifiers = group.hops := by
  have hbordering : bordering.Separable := by decide +kernel
  have hother : (sighting "eth0" 2).Separable := by decide +kernel
  obtain ⟨hpieces, hsame, hgroups⟩ := signature_identifies_route (α := Rat)
  have hspelled : bordering.identifiers = ["eth0-", "*", ">eth1"] := by decide +kernel
  refine ⟨hbordering, by decide +kernel, (hpieces bordering hbordering (by decide)).trans hspelled,
    hsame _ _ hbordering hother (by decide) (by decide), fun group hgroup => ?_⟩
  refine (hgroups _ ?_ group hgroup).2
  intro t ht
  simp only [List.mem_cons, List.not_mem_nil, or_false] at ht
  rcases ht with rfl | rfl | rfl
  · exact hother
  · exact hbordering
  · exact hbordering

end Route

end PathAtlas
