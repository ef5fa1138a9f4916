import Argentum.Core.Forest
import Argentum.Mycelium.Chain

/-! `get_trail_graph`: up the parents of a trail to the topmost row, then down through
everything below it. Neither the loop nor the recursion keeps a visited set, so both
rely on what `record_trail` writes: a new row names no row yet to come. The recursion is as
deep as the graph is high, on a stack of limited depth. -/
namespace Argentum.Mycelium
open Argentum Text Forest

/-- What a node of the graph says of its row, beside its children. -/
structure GraphNode where
  trailId : String
  agentId : String
  karmaAtTime : Option Int
  attestationCount : Nat
  parentTrailId : Option String
  deriving DecidableEq

def graphNode (t : TrailRow) : GraphNode :=
  { trailId := t.trailId, agentId := t.agentId, karmaAtTime := t.karmaAtTime, attestationCount := 0
    parentTrailId := t.parentTrailId }

/-- The parent the loop of `get_trail_graph` goes up to: it has to be named and there. -/
def parentRow (trails : Table TrailRow) (current : TrailRow) : Option TrailRow :=
  current.parent?.bind (getTrailById trails)

/-- `_build_node`, on a stack for so many calls of it in each other. -/
def buildNode (trails : Table TrailRow) : Nat → TrailRow → Except PyError (Rose GraphNode)
  | 0, _ => .error .recursionError
  | calls + 1, t => do
      let rows := trails.rows.filter fun row => row.parentTrailId = some t.trailId
      let children ← mapOk (buildNode trails calls) (rows.filterMap fun row => getTrailById trails row.trailId)
      return .node (graphNode t) children

/-- `get_trail_graph`, for as long as the fuel of its loop lasts. -/
def getTrailGraph (calls fuel : Nat) (trails : Table TrailRow) (trailId : String) :
    Option (Except PyError (Option (Rose GraphNode))) :=
  match getTrailById trails trailId with
  | none => some (.ok none)
  | some row => do
      let root ← climb (parentRow trails) fuel row
      return do
        let node ← buildNode trails calls root
        return some node

/-- The parent relation of the table, between its rows. -/
abbrev ParentIn (trails : Table TrailRow) : TrailRow → TrailRow → Prop :=
  Step TrailRow.trailId TrailRow.parentTrailId trails.rows

/-- No trail is above itself. -/
abbrev AcyclicTrails (trails : Table TrailRow) : Prop :=
  Acyclic TrailRow.trailId TrailRow.parentTrailId trails.rows

section
variable {trails : Table TrailRow} {row parent : TrailRow} {fuel : Nat}

theorem parentRow_eq_some_iff (named : ∀ row ∈ trails.rows, row.trailId ≠ "") (inside : row ∈ trails.rows) :
    parentRow trails row = some parent ↔ ParentIn trails row parent := by
  constructor
  · intro found
    obtain ⟨id, names, found⟩ := Option.bind_eq_some_iff.mp found
    obtain ⟨member, key⟩ := Table.find?_eq_some_iff.mp found
    have stated : row.parentTrailId = some id := (Option.filter_eq_some_iff.mp names).1
    exact ⟨inside, member, stated.trans (congrArg some key.symm)⟩
  · intro step
    have nonempty := named parent step.parent
    have names : row.parent? = some parent.trailId := by
      simp [TrailRow.parent?, given, step.names, nonempty]
    rw [parentRow, names]
    exact Table.find?_eq_some_iff.mpr ⟨step.parent, rfl⟩

/-- The rows below a node are read back by their ids. -/
theorem children_eq (t : TrailRow) :
    (trails.rows.filter fun row => row.parentTrailId = some t.trailId).filterMap
      (fun row => getTrailById trails row.trailId) =
    childrenOf TrailRow.trailId TrailRow.parentTrailId trails.rows t := by
  have back : ∀ row ∈ trails.rows.filter (fun row => row.parentTrailId = some t.trailId),
      getTrailById trails row.trailId = some row := by
    intro row member
    exact Table.find?_eq_some_iff.mpr ⟨(List.mem_filter.mp member).1, rfl⟩
  rw [List.filterMap_congr back, List.filterMap_some]
  rfl

/-- The answer where the recursion ends, else `RecursionError`. -/
def within {α : Type} : Option α → Except PyError α
  | some value => .ok value
  | none => .error .recursionError

theorem mapOk_within {α β : Type} (f : α → Option β) (xs : List α) :
    mapOk (fun x => within (f x)) xs = within (xs.mapM f) := by
  induction xs with
  | nil => rfl
  | cons x rest ih =>
      rw [mapOk, ih, List.mapM_cons]
      cases f x with
      | none => rfl
      | some y => cases rest.mapM f <;> rfl

theorem buildNode_eq (trails : Table TrailRow) (calls : Nat) (t : TrailRow) : buildNode trails calls t =
    within ((unfold (childrenOf TrailRow.trailId TrailRow.parentTrailId trails.rows) calls t).map
      (Rose.map graphNode)) := by
  induction calls generalizing t with
  | zero => rfl
  | succ calls ih =>
      simp only [buildNode, unfold, children_eq, funext ih, mapOk_within, mapM_map]
      cases (childrenOf TrailRow.trailId TrailRow.parentTrailId trails.rows t).mapM
        (unfold (childrenOf TrailRow.trailId TrailRow.parentTrailId trails.rows) calls) with
      | none => rfl
      | some trees => simp [Rose.map, Rose.mapAll_eq, within, ok_bind, pure, Except.pure]

/-- The graph of a trail is the tree of everything below its topmost row, where the stack holds as
many calls as the tree is high. -/
theorem exists_getTrailGraph (acyclic : AcyclicTrails trails) (named : ∀ row ∈ trails.rows, row.trailId ≠ "")
    (found : trails.find? row.trailId = some row) (enough : trails.rows.length ≤ fuel) :
    ∃ top tree, Topmost TrailRow.trailId TrailRow.parentTrailId trails.rows row top ∧
      Spans TrailRow.trailId TrailRow.parentTrailId trails.rows top tree ∧ tree.height ≤ trails.rows.length ∧
      ∀ calls, getTrailGraph calls fuel trails row.trailId =
        some (if tree.height ≤ calls then .ok (some (tree.map graphNode)) else .error .recursionError) := by
  have inside : row ∈ trails.rows := Table.find?_mem found
  obtain ⟨top, climbed, topmost⟩ := exists_climb acyclic
    (fun row member parent => parentRow_eq_some_iff named member)
    (List.isChain_singleton row) (by simpa using inside) (by simpa using enough)
  have unique : (trails.rows.map TrailRow.trailId).Nodup := trails.unique
  obtain ⟨tree, unfolded, spans⟩ := exists_unfold unique acyclic (List.isChain_singleton top)
    (by simpa using topmost.inside) (Nat.le_refl trails.rows.length)
  refine ⟨top, tree, topmost, spans, (unfold_eq_some_iff unfolded).mp unfolded, fun calls => ?_⟩
  have walked : climb (parentRow trails) fuel row = some top := climbed
  rw [getTrailGraph, getTrailById, found]
  simp only [Option.bind_eq_bind, walked, Option.bind_some, Option.pure_def, buildNode_eq, unfold_eq unfolded calls]
  split <;> rfl

end

/-- A call of `record_trail`: the `uuid4` it draws, its arguments and its clock. -/
structure TrailCall where
  settings : Settings
  trailId : String
  trail : NewTrail
  now : Seconds

/-- The calls one after the other. -/
def recordTrails (w : World) (calls : List TrailCall) : World :=
  calls.foldl (fun w call => ((recordTrail call.settings call.trailId call.trail call.now).run w).2) w

/-- The call names this id as its parent. -/
def TrailCall.mentions (call : TrailCall) (trailId : String) : Prop :=
  call.trail.parentTrailId = some (ofString trailId)

section
variable {w : World} {call : TrailCall} {calls earlier : List TrailCall}

/-- A call leaves the trails alone or appends its row. -/
theorem run_recordTrail_trails (w : World) (call : TrailCall) :
    let after := ((recordTrail call.settings call.trailId call.trail call.now).run w).2
    after.trails = w.trails ∨ ∃ row, after.trails.rows = w.trails.rows ++ [row] ∧ row.trailId = call.trailId ∧
      ∀ id, row.parentTrailId = some id → call.mentions id := by
  dsimp only
  rw [run_recordTrail]
  split
  · exact .inl rfl
  split
  · exact .inl rfl
  rename_i row made
  split
  · exact .inl rfl
  rename_i trails inserted
  have stored := row_stored made
  refine .inr ⟨row, Table.rows_insert inserted, stored.named, fun id names => ?_⟩
  have parent := stored.parent
  cases asked : call.trail.parentTrailId with
  | none =>
      rw [asked, names] at parent
      cases parent
  | some s =>
      rw [asked, names] at parent
      change (bindStr s).map some = .ok (some id) at parent
      cases bound : bindStr s with
      | error raised =>
          rw [bound] at parent
          cases parent
      | ok text =>
          rw [bound] at parent
          obtain rfl := Option.some.inj (Except.ok.inj parent)
          rw [TrailCall.mentions, asked, ofString_of_bindStr bound]

/-- What the calls so far leave: no cycle, and only parents that they mention. -/
structure Written (earlier : List TrailCall) (w : World) : Prop where
  acyclic : AcyclicTrails w.trails
  mentioned : ∀ row ∈ w.trails.rows, ∀ id, row.parentTrailId = some id → ∃ call ∈ earlier, call.mentions id

theorem Written.record (written : Written earlier w) (fresh : ∀ other ∈ earlier, ¬ other.mentions call.trailId)
    (apart : ¬ call.mentions call.trailId) :
    Written (earlier ++ [call]) ((recordTrail call.settings call.trailId call.trail call.now).run w).2 := by
  rcases run_recordTrail_trails w call with same | ⟨row, rows, named, parents⟩
  · refine ⟨same ▸ written.acyclic, fun row member id names => ?_⟩
    rw [same] at member
    obtain ⟨other, before, mentions⟩ := written.mentioned row member id names
    exact ⟨other, List.mem_append_left _ before, mentions⟩
  · refine ⟨?_, fun other member id names => ?_⟩
    · rw [AcyclicTrails, rows]
      refine written.acyclic.append (fun other member names => ?_) fun names => ?_
      · obtain ⟨before, inside, mentions⟩ := written.mentioned other member _ names
        exact fresh before inside (named ▸ mentions)
      · exact apart (named ▸ parents _ names)
    · rw [rows] at member
      rcases List.mem_append.mp member with member | own
      · obtain ⟨before, inside, mentions⟩ := written.mentioned other member id names
        exact ⟨before, List.mem_append_left _ inside, mentions⟩
      · obtain rfl := List.mem_singleton.mp own
        exact ⟨call, by simp, parents id names⟩

/-- Every id is drawn before it is mentioned. -/
structure Fresh (calls : List TrailCall) : Prop where
  earlier : calls.Pairwise fun before call => ¬ before.mentions call.trailId
  apart : ∀ call ∈ calls, ¬ call.mentions call.trailId

theorem Written.recordAll (written : Written earlier w) (fresh : Fresh (earlier ++ calls)) :
    Written (earlier ++ calls) (recordTrails w calls) := by
  induction calls generalizing w earlier with
  | nil => simpa [recordTrails] using written
  | cons call rest ih =>
      have split : earlier ++ call :: rest = (earlier ++ [call]) ++ rest := by simp
      have before := (List.pairwise_append.mp fresh.earlier).2.2
      have next := written.record (fun other member => before other member call List.mem_cons_self)
        (fresh.apart call (by simp))
      rw [split] at fresh ⊢
      exact ih next fresh

/-- What the calls write is acyclic, and the graph of a trail in an acyclic table is everything below
its topmost ancestor, or higher than the stack. -/
theorem trailForest :
    (∀ (w : World) (calls : List TrailCall), w.trails.rows = [] → Fresh calls →
      AcyclicTrails (recordTrails w calls).trails) ∧
    ∀ (trails : Table TrailRow) (row : TrailRow) (fuel : Nat), AcyclicTrails trails →
      (∀ row ∈ trails.rows, row.trailId ≠ "") → trails.find? row.trailId = some row →
      trails.rows.length ≤ fuel →
      ∃ top tree, Topmost TrailRow.trailId TrailRow.parentTrailId trails.rows row top ∧
        (∀ other, Topmost TrailRow.trailId TrailRow.parentTrailId trails.rows row other → top = other) ∧
        Spans TrailRow.trailId TrailRow.parentTrailId trails.rows top tree ∧ tree.height ≤ trails.rows.length ∧
        ∀ calls, getTrailGraph calls fuel trails row.trailId =
          some (if tree.height ≤ calls then .ok (some (tree.map graphNode)) else .error .recursionError) := by
  constructor
  · intro w calls none fresh
    have start : Written [] w := by
      refine ⟨?_, by simp [none]⟩
      rw [AcyclicTrails, none]
      exact acyclic_nil
    exact (start.recordAll fresh).acyclic
  · intro trails row fuel acyclic named found enough
    obtain ⟨top, tree, topmost, spans, low, shown⟩ := exists_getTrailGraph acyclic named found enough
    exact ⟨top, tree, topmost, fun other => topmost.unique trails.unique, spans, low, shown⟩

end

/-- A trail that names `parent` as the one it came from. -/
def childTrail (parent : Option Str) : NewTrail :=
  { agentId := "agent", service := .str (ofString "oasis"), operation := ofString "enter", nonce := ofString "n"
    rateLimitCap := 0, parentTrailId := parent }

def childCall (trailId : String) (parent : Option Str) : TrailCall where
  settings := { trailDailyLimit := 100, enterpriseAgents := [], utcOffset := fun _ => 0, arbPayOk := false
                webhookOk := false }
  trailId := trailId
  trail := childTrail parent
  now := 0

/-- A trail and one it led to. -/
def familyCalls : List TrailCall := [childCall "a" none, childCall "b" (some (ofString "a"))]

theorem fresh_familyCalls : Fresh familyCalls := by
  have apart : ofString "a" ≠ ofString "b" := by decide
  constructor
  · simp [familyCalls, childCall, childTrail, TrailCall.mentions]
  · simp [familyCalls, childCall, childTrail, TrailCall.mentions, apart]

theorem trailForest_family : let trails := (recordTrails World.empty familyCalls).trails
    AcyclicTrails trails ∧ ∃ row top tree, row.trailId = "b" ∧
      Topmost TrailRow.trailId TrailRow.parentTrailId trails.rows row top ∧
      Spans TrailRow.trailId TrailRow.parentTrailId trails.rows top tree ∧
      getTrailGraph 900 2 trails row.trailId = some (.ok (some (tree.map graphNode))) := by
  intro trails
  have ids : trails.rows.map TrailRow.trailId = ["a", "b"] := by decide +kernel
  have acyclic : AcyclicTrails trails := trailForest.1 World.empty familyCalls rfl fresh_familyCalls
  have named : ∀ row ∈ trails.rows, row.trailId ≠ "" := by
    intro row member
    have listed := List.mem_map_of_mem (f := TrailRow.trailId) member
    rw [ids] at listed
    rintro empty
    rw [empty] at listed
    contradiction
  have stored : "b" ∈ trails.rows.map TrailRow.trailId := by simp [ids]
  obtain ⟨row, member, key⟩ := List.mem_map.mp stored
  have length : trails.rows.length ≤ 2 := by
    have counted := congrArg List.length ids
    rw [List.length_map] at counted
    exact counted.le
  obtain ⟨top, tree, topmost, _, spans, low, shown⟩ := trailForest.2 trails row 2 acyclic named
    (Table.find?_eq_some_iff.mpr ⟨member, rfl⟩) length
  refine ⟨acyclic, row, top, tree, key, topmost, spans, ?_⟩
  rw [shown, if_pos (by omega)]

/-- The row of the empty id, and a row that names it. -/
def emptyTrails : Table TrailRow where
  rows := [("", none), ("a", some "")].map fun (trailId, parentTrailId) =>
    { trailId, agentId := "agent", service := .text "oasis", operation := "enter", timestamp := 0
      signatureRef := "signed", scope := none, delegationRef := none, negotiationRef := none
      negotiationRefStatus := none, origin := "internal", parentTrailId }
  unique := by decide

theorem acyclic_emptyTrails : AcyclicTrails emptyTrails := by
  intro row cycle
  obtain ⟨_, first, _⟩ := Relation.TransGen.head'_iff.mp cycle
  obtain ⟨_, _, last⟩ := Relation.TransGen.tail'_iff.mp cycle
  have members := first.child
  have names := first.names
  have named := last.names
  have child := last.child
  simp only [emptyTrails, List.map_cons, List.map_nil, List.mem_cons, List.not_mem_nil, or_false] at members child
  rcases members with rfl | rfl
  · cases names
  · rcases child with rfl | rfl <;> simp at named

/-- The id of a row of the chain. -/
def chainId (n : Nat) : String := String.ofList (List.replicate (n + 1) 'a')

theorem chainId_injective : Function.Injective chainId := fun m n same => by
  simpa using congrArg List.length (String.ofList_injective same)

/-- A row that names the row before it. -/
def chainRow (n : Nat) : TrailRow :=
  { trailId := chainId n, agentId := "agent", service := .text "oasis", operation := "enter", timestamp := 0
    signatureRef := "signed", scope := none, delegationRef := none, negotiationRef := none
    negotiationRefStatus := none, origin := "internal"
    parentTrailId := match n with
      | 0 => none
      | n + 1 => some (chainId n) }

/-- So many rows that each name the one before. -/
def chainTrails (length : Nat) : Table TrailRow where
  rows := (List.range length).map chainRow
  unique := by
    rw [List.map_map]
    exact List.nodup_range.map chainId_injective

theorem chainRow_step {length : Nat} {row above : TrailRow} (step : ParentIn (chainTrails length) row above) :
    ∃ n, row = chainRow (n + 1) ∧ above = chainRow n := by
  obtain ⟨m, _, rfl⟩ := List.mem_map.mp step.child
  obtain ⟨n, _, rfl⟩ := List.mem_map.mp step.parent
  have names := step.names
  cases m with
  | zero => cases names
  | succ m =>
      obtain rfl := chainId_injective (Option.some.inj names)
      exact ⟨m, rfl, rfl⟩

/-- A row is above those that come later. -/
theorem acyclic_chainTrails (length : Nat) : AcyclicTrails (chainTrails length) := by
  have later : ∀ {row above}, Relation.TransGen (ParentIn (chainTrails length)) row above →
      above.trailId.toList.length < row.trailId.toList.length := by
    have one : ∀ {row above}, ParentIn (chainTrails length) row above →
        above.trailId.toList.length < row.trailId.toList.length := by
      intro row above step
      obtain ⟨n, rfl, rfl⟩ := chainRow_step step
      simp [chainRow, chainId]
    intro row above climbs
    induction climbs with
    | single step => exact one step
    | tail _ step ih => exact (one step).trans ih
  exact fun row cycle => Nat.lt_irrefl _ (later cycle)

/-- The rows left of the chain take as many calls. -/
theorem unfold_chainTrails {length calls n : Nat} (long : n + calls < length) :
    unfold (childrenOf TrailRow.trailId TrailRow.parentTrailId (chainTrails length).rows) calls (chainRow n) = none := by
  induction calls generalizing n with
  | zero => rfl
  | succ calls ih =>
      have inside : ∀ m < length, chainRow m ∈ (chainTrails length).rows := fun m bound =>
        List.mem_map_of_mem (List.mem_range.mpr bound)
      refine unfold_eq_none ((mem_childrenOf (inside n (by omega))).mpr ?_) (@ih (n + 1) (by omega))
      exact ⟨inside _ (by omega), inside _ (by omega), rfl⟩

/-- The graph of a chain that is longer than the stack is not built. -/
theorem getTrailGraph_chainTrails {length calls fuel : Nat} (long : calls < length) (runs : 0 < fuel) :
    getTrailGraph calls fuel (chainTrails length) (chainId 0) = some (.error .recursionError) := by
  have inside : chainRow 0 ∈ (chainTrails length).rows := List.mem_map_of_mem (List.mem_range.mpr (by omega))
  have found : getTrailById (chainTrails length) (chainId 0) = some (chainRow 0) :=
    Table.find?_eq_some_iff.mpr ⟨inside, rfl⟩
  have climbed : climb (parentRow (chainTrails length)) fuel (chainRow 0) = some (chainRow 0) := by
    cases fuel with
    | zero => contradiction
    | succ fuel => rfl
  have deep := @unfold_chainTrails length calls 0 (by omega)
  rw [getTrailGraph, found]
  simp only [Option.bind_eq_bind, climbed, Option.bind_some, Option.pure_def, buildNode_eq, deep]
  rfl

/-- The graph of a trail is the tree of its topmost ancestor. -/
def Shown (calls : Nat) (trails : Table TrailRow) (row : TrailRow) : Prop := ∃ fuel top tree,
  Topmost TrailRow.trailId TrailRow.parentTrailId trails.rows row top ∧
    getTrailGraph calls fuel trails row.trailId = some (.ok (some (tree.map graphNode))) ∧
    Spans TrailRow.trailId TrailRow.parentTrailId trails.rows top tree

/-- The walk up stops below the empty id. -/
theorem not_shown_emptyTrails (calls : Nat) : ¬ Shown calls emptyTrails emptyTrails.rows[1] := by
  rintro ⟨fuel, top, tree, topmost, shown, spans⟩
  have child : emptyTrails.rows[1] ∈ emptyTrails.rows := List.getElem_mem _
  have above : ParentIn emptyTrails emptyTrails.rows[1] emptyTrails.rows[0] :=
    ⟨child, List.getElem_mem _, rfl⟩
  have lower : top ≠ emptyTrails.rows[1] := by
    rintro rfl
    exact topmost.last _ above
  cases fuel with
  | zero => cases shown
  | succ fuel =>
      cases calls with
      | zero => cases Option.some.inj shown
      | succ calls =>
          have leaf : getTrailGraph (calls + 1) (fuel + 1) emptyTrails "a" =
              some (.ok (some (.node (graphNode emptyTrails.rows[1]) []))) := rfl
          obtain ⟨value, children⟩ := tree
          obtain rfl : value = top := spans.root
          have same := Option.some.inj (Except.ok.inj (Option.some.inj (shown.symm.trans leaf)))
          rw [Rose.map] at same
          have key : value.trailId = "a" := congrArg GraphNode.trailId (Rose.node.inj same).1
          have inside := topmost.inside
          simp only [emptyTrails, List.map_cons, List.map_nil, List.mem_cons, List.not_mem_nil, or_false] at inside
          rcases inside with rfl | rfl
          · contradiction
          · exact lower rfl

/-- A chain that is longer than the stack has no graph. -/
theorem not_shown_chainTrails {length calls : Nat} (long : calls < length) :
    (∀ row ∈ (chainTrails length).rows, row.trailId ≠ "") ∧
      (chainTrails length).find? (chainRow 0).trailId = some (chainRow 0) ∧
      ¬ Shown calls (chainTrails length) (chainRow 0) := by
  have found : (chainTrails length).find? (chainRow 0).trailId = some (chainRow 0) :=
    Table.find?_eq_some_iff.mpr ⟨List.mem_map_of_mem (List.mem_range.mpr (by omega)), rfl⟩
  refine ⟨List.forall_mem_map.mpr fun n _ empty => ?_, found, ?_⟩
  · have short := congrArg (List.length ∘ String.toList) empty
    simp [chainRow, chainId] at short
  · rintro ⟨fuel, top, tree, _, shown, _⟩
    cases fuel with
    | zero =>
        rw [getTrailGraph, getTrailById, found] at shown
        cases shown
    | succ fuel => cases Option.some.inj (shown.symm.trans (getTrailGraph_chainTrails long (Nat.succ_pos fuel)))

/-- A call may draw the id it names as its parent, the walk up stops below the empty id, and a stack
of 1000 calls does not hold a chain of 1001 trails. -/
theorem not_trailForest :
    (¬ ∀ calls : List TrailCall, (calls.Pairwise fun earlier call => ¬ earlier.mentions call.trailId) →
      AcyclicTrails (recordTrails World.empty calls).trails) ∧
    (∃ row, AcyclicTrails emptyTrails ∧ emptyTrails.find? row.trailId = some row ∧ ¬ Shown 1000 emptyTrails row) ∧
    ∃ row, AcyclicTrails (chainTrails 1001) ∧ (∀ row ∈ (chainTrails 1001).rows, row.trailId ≠ "") ∧
      (chainTrails 1001).find? row.trailId = some row ∧ ¬ Shown 1000 (chainTrails 1001) row := by
  refine ⟨fun claimed => ?_, ⟨emptyTrails.rows[1], acyclic_emptyTrails,
    Table.find?_eq_some_iff.mpr ⟨List.getElem_mem _, rfl⟩, not_shown_emptyTrails 1000⟩,
    chainRow 0, acyclic_chainTrails 1001, not_shown_chainTrails (Nat.lt_succ_self 1000)⟩
  have acyclic := claimed [childCall "a" (some (ofString "a"))] (List.pairwise_singleton _ _)
  have stored : (recordTrails World.empty [childCall "a" (some (ofString "a"))]).trails.rows.map
      (fun row => (row.trailId, row.parentTrailId)) = [("a", some "a")] := by decide +kernel
  have listed : ("a", some "a") ∈ (recordTrails World.empty [childCall "a" (some (ofString "a"))]).trails.rows.map
      (fun row => (row.trailId, row.parentTrailId)) := by simp [stored]
  obtain ⟨row, member, columns⟩ := List.mem_map.mp listed
  obtain ⟨key, names⟩ := Prod.mk.inj columns
  exact acyclic row (.single ⟨member, member, names.trans (congrArg some key.symm)⟩)

end Argentum.Mycelium
