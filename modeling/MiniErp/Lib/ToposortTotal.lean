import Mathlib.Data.Set.Finite.List
import Mathlib.Order.WellFoundedSet
import MiniErp.Lib.Toposort

/-! Topological sorting finds an order of every acyclic graph. The second half is the same
algorithm with its two tables looked up key by key, where a failed lookup or a loop that does not
end is no result at all: on a graph whose edges join its nodes it has the same result. -/
namespace MiniErp.Toposort
open List
variable {α : Type} [Ord α] [DecidableEq α]

/-- Every edge joins two nodes of the graph. -/
def Closed (nodes : List α) (edges : List (α × α)) : Prop :=
  ∀ edge∈edges, edge.1∈nodes ∧ edge.2∈nodes

section Complete
variable [Std.TransOrd α] [Std.LawfulEqOrd α] {nodes : List α} {edges : List (α × α)}

omit [Ord α] [DecidableEq α] [Std.TransOrd α] [Std.LawfulEqOrd α] in
/-- A set of nodes that has an edge into each of its members from within has a cycle. -/
theorem none_of_acyclic (hacyclic : ∀ v, ¬Relation.TransGen (fun a b => (a, b)∈edges) v v)
    {P : α → Prop} (hP : ∀ v, P v → ∃ u, P u ∧ u∈nodes ∧ (u, v)∈edges) : ∀ v∈nodes, ¬P v := by
  have hstrict : IsStrictOrder α (Relation.TransGen fun a b => (a, b)∈edges) :=
    { irrefl := hacyclic, trans := fun _ _ _ => Relation.TransGen.trans }
  have hwf : {v | v∈nodes}.WellFoundedOn (Relation.TransGen fun a b => (a, b)∈edges) :=
    (finite_toSet nodes).wellFoundedOn
  intro v hv
  refine hwf.induction (P := fun v => ¬P v) hv ?_
  intro v _ ih hPv
  obtain ⟨u,hPu,hu,hedge⟩ := hP v hPv
  exact ih u hu (.single hedge) hPu

omit [Std.TransOrd α] [Std.LawfulEqOrd α] in
theorem Inv.ordered_of_acyclic {s : State α} (h : Inv nodes edges s []) (hqueue : s.queue=[])
    (hclosed : Closed nodes edges)
    (hacyclic : ∀ v, ¬Relation.TransGen (fun a b => (a, b)∈edges) v v) : ∀ v∈nodes, v∈s.order := by
  have hopen : ∀ v, v∈nodes ∧ v∉s.order → ∃ u, (u∈nodes ∧ u∉s.order) ∧ u∈nodes ∧ (u, v)∈edges := by
    rintro v ⟨hv,hout⟩
    have hready := h.ready v hv
    rw [h.count v,hqueue,append_nil,count_nil] at hready
    have hpos : 0<openCount edges s.order v := Nat.pos_of_ne_zero (hready.not.mp hout)
    obtain ⟨⟨u,w⟩,hedge,hfacts⟩ := countP_pos_iff.mp hpos
    obtain ⟨rfl,hu⟩ := of_decide_eq_true hfacts
    have hknown := (hclosed _ hedge).1
    exact ⟨u,⟨hknown,hu⟩,hknown,hedge⟩
  intro v hv
  by_contra hout
  exact none_of_acyclic hacyclic hopen v hv ⟨hv,hout⟩

theorem sort_of_acyclic (hnodup : nodes.Nodup) (hclosed : Closed nodes edges)
    (hacyclic : ∀ v, ¬Relation.TransGen (fun a b => (a, b)∈edges) v v) :
    ∃ order, sort nodes edges=some order := by
  have hedges : ∀ edge∈edges, edge.2∈nodes := fun edge hedge => (hclosed edge hedge).2
  have hinv := (start_inv hedges).run hedges nodes.length
  have hqueue : (run edges nodes.length (start nodes edges)).queue=[] :=
    queue_run hedges (start_inv hedges) (Nat.le_add_left _ _)
  have hall := hinv.ordered_of_acyclic hqueue hclosed hacyclic
  have hle := hinv.length_le
  have hge := (subperm_of_subset hnodup hall).length_le
  exact ⟨_,if_pos (by omega)⟩

end Complete

/-! The algorithm with its lookups. -/
namespace Lookup

structure Tables (α : Type) [Ord α] where
  indegree : Std.TreeMap α Nat
  outgoing : Std.TreeMap α (List α)

def addNode (t : Tables α) (node : α) : Tables α where
  indegree := t.indegree.insert node 0
  outgoing := t.outgoing.insert node []

def addEdge (t : Tables α) (edge : α × α) : Option (Tables α) := do
  let count ← t.indegree[edge.2]?
  let children ← t.outgoing[edge.1]?
  return {
    indegree := t.indegree.insert edge.2 (count+1)
    outgoing := t.outgoing.insert edge.1 (children++[edge.2]) }

def tables (nodes : List α) (edges : List (α × α)) : Option (Tables α) :=
  edges.foldlM addEdge (nodes.foldl addNode ⟨∅,∅⟩)

def release (s : State α) (child : α) : Option (State α) := do
  let count ← s.indegree[child]?
  return { s with
    indegree := s.indegree.insert child (count-1)
    queue := if count-1=0 then s.queue++[child] else s.queue }

/-- The loop until the queue is empty; there is no result when the fuel ends first. -/
def run (outgoing : Std.TreeMap α (List α)) : Nat → State α → Option (State α)
  | 0, _ => none
  | fuel+1, s =>
    match s.queue with
    | [] => some s
    | node::rest => do
      let s ← (outgoing.getD node []).foldlM release
        { s with queue := rest, order := s.order++[node] }
      run outgoing fuel s

def sort (nodes : List α) (edges : List (α × α)) : Option (Option (List α)) := do
  let t ← tables nodes edges
  let queue := (t.indegree.toList.filter fun entry => entry.2 == 0).map (·.1)
  let s ← run t.outgoing (nodes.length+1) { indegree := t.indegree, queue, order := [] }
  return if s.order.length=nodes.length then some s.order else none

section Lawful
variable [Std.TransOrd α] [Std.LawfulEqOrd α] {nodes : List α} {edges : List (α × α)}

omit [DecidableEq α] in
theorem mem_indegrees {v : α} : v∈indegrees nodes edges ↔ v∈nodes ∨ v∈edges.map (·.2) := by
  rw [indegrees,mem_foldl_openEdge,mem_foldl_insert]
  simp only [Std.TreeMap.not_mem_emptyc,false_or]

/-- What the tables hold after some of the edges: the counts, and the children of every node. -/
structure Tables.Holds (nodes : List α) (edges : List (α × α)) (t : Tables α) : Prop where
  indegree : t.indegree=indegrees nodes edges
  outgoing : ∀ v, t.outgoing[v]?=if v∈nodes then some (Toposort.outgoing edges v) else none

omit [DecidableEq α] [Std.TransOrd α] [Std.LawfulEqOrd α] in
theorem foldl_addNode (nodes : List α) (t : Tables α) : nodes.foldl addNode t =
      ⟨nodes.foldl (fun table node => table.insert node 0) t.indegree,
        nodes.foldl (fun table node => table.insert node []) t.outgoing⟩ := by
  induction nodes generalizing t with
  | nil => rfl
  | cons node rest ih => exact ih _

theorem getElem?_foldl_insert_nil (nodes : List α) (m : Std.TreeMap α (List α)) (v : α) :
    (nodes.foldl (fun table node => table.insert node []) m)[v]? =
      if v∈nodes then some [] else m[v]? := by
  induction nodes generalizing m with
  | nil => rfl
  | cons node rest ih =>
    rw [foldl_cons,ih,Std.TreeMap.getElem?_insert]
    by_cases heq : node=v
    · subst heq
      simp
    · simp [heq,Ne.symm heq]

theorem holds_nodes (nodes : List α) : Tables.Holds nodes [] (nodes.foldl addNode ⟨∅,∅⟩) := by
  rw [foldl_addNode]
  refine ⟨rfl,fun v => ?_⟩
  rw [getElem?_foldl_insert_nil]
  simp [Toposort.outgoing]

theorem Tables.Holds.addEdge {done : List (α × α)} {t : Tables α} {edge : α × α}
    (h : t.Holds nodes done) (hsource : edge.1∈nodes) (htarget : edge.2∈nodes) :
    ∃ t', Lookup.addEdge t edge=some t' ∧ t'.Holds nodes (done++[edge]) := by
  have hchildren := h.outgoing edge.1
  rw [if_pos hsource] at hchildren
  have hcounted : edge.2∈t.indegree := h.indegree ▸ mem_indegrees.mpr (.inl htarget)
  have hcount : t.indegree[edge.2]?=some (t.indegree.getD edge.2 0) := by
    rw [Std.TreeMap.getElem?_eq_some_getD hcounted]
  refine ⟨⟨t.indegree.insert edge.2 (t.indegree.getD edge.2 0+1),
    t.outgoing.insert edge.1 (Toposort.outgoing done edge.1++[edge.2])⟩,?_,?_,fun v => ?_⟩
  · simp only [Lookup.addEdge,hcount,hchildren,Option.bind_eq_bind,Option.bind_some,
      Option.pure_def]
  · rw [h.indegree,indegrees,indegrees,foldl_append]
    rfl
  · rw [Std.TreeMap.getElem?_insert,h.outgoing v]
    by_cases heq : edge.1=v
    · subst heq
      simp [hsource,Toposort.outgoing]
    · simp [heq,Toposort.outgoing]

theorem Tables.Holds.foldlM {rest done : List (α × α)} {t : Tables α} (h : t.Holds nodes done)
    (hclosed : Closed nodes rest) :
    ∃ t', rest.foldlM Lookup.addEdge t=some t' ∧ t'.Holds nodes (done++rest) := by
  induction rest generalizing done t with
  | nil => exact ⟨t,rfl,by simpa using h⟩
  | cons edge rest ih =>
    obtain ⟨hsource,htarget⟩ := hclosed edge mem_cons_self
    obtain ⟨next,hnext,hholds⟩ := h.addEdge hsource htarget
    obtain ⟨last,hlast,hall⟩ := ih hholds fun e he => hclosed e (mem_cons_of_mem edge he)
    refine ⟨last,?_,by simpa using hall⟩
    rw [foldlM_cons,hnext]
    exact hlast

omit [DecidableEq α] [Std.LawfulEqOrd α] in
theorem release_eq {s : State α} {child : α} (h : child∈s.indegree) :
    release s child=some (Toposort.release s child) := by
  rw [release,Std.TreeMap.getElem?_eq_some_getD h]
  rfl

omit [DecidableEq α] [Std.LawfulEqOrd α] in
theorem foldlM_release {children : List α} {s : State α} (h : ∀ c∈children, c∈s.indegree) :
    children.foldlM release s=some (children.foldl Toposort.release s) := by
  induction children generalizing s with
  | nil => rfl
  | cons child rest ih =>
    rw [foldlM_cons,release_eq (h child mem_cons_self)]
    refine ih fun c hc => ?_
    exact Std.TreeMap.mem_insert.mpr (.inr (h c (mem_cons_of_mem child hc)))

omit [DecidableEq α] [Std.LawfulEqOrd α] in
theorem mem_indegree_foldl_release {children : List α} {s : State α} {v : α}
    (h : v∈s.indegree) : v∈(children.foldl Toposort.release s).indegree := by
  induction children generalizing s with
  | nil => exact h
  | cons child rest ih => exact ih (Std.TreeMap.mem_insert.mpr (.inr h))

/-- The loop looks up known nodes only, and its fuel empties the queue. -/
theorem run_eq {table : Std.TreeMap α (List α)}
    (htable : ∀ v, table.getD v []=Toposort.outgoing edges v) (hedges : ∀ edge∈edges, edge.2∈nodes)
    {fuel : Nat} {s : State α} (h : Inv nodes edges s []) (hcounted : ∀ v∈nodes, v∈s.indegree)
    (hfuel : nodes.length ≤ s.order.length+fuel) :
    run table (fuel+1) s=some (Toposort.run edges fuel s) := by
  induction fuel generalizing s with
  | zero =>
    have hle := h.length_le
    have hqueue : s.queue=[] := length_eq_zero_iff.mp (by omega)
    rw [run,hqueue]
    rfl
  | succ fuel ih =>
    rw [run,Toposort.run]
    cases hqueue : s.queue with
    | nil => rfl
    | cons node rest =>
      have hreleased := @foldlM_release α _ _ (Toposort.outgoing edges node)
        { s with queue := rest, order := s.order++[node] } fun child hchild => by
          obtain ⟨edge,hedge,rfl⟩ := mem_map.mp hchild
          exact hcounted _ (hedges edge (mem_filter.mp hedge).1)
      simp only [htable,hreleased]
      refine ih (h.visit hqueue hedges) (fun v hv => ?_) ?_
      · exact mem_indegree_foldl_release (hcounted v hv)
      · rw [order_foldl_release,length_append,length_singleton]
        omega

/-- On a graph whose edges join its nodes no lookup fails and the loop ends. -/
theorem sort_eq (hclosed : Closed nodes edges) :
    sort nodes edges=some (Toposort.sort nodes edges) := by
  have hedges : ∀ edge∈edges, edge.2∈nodes := fun edge hedge => (hclosed edge hedge).2
  obtain ⟨t,ht,hholds⟩ := (holds_nodes nodes).foldlM hclosed
  have htable : ∀ v, t.outgoing.getD v []=Toposort.outgoing edges v := by
    intro v
    rw [Std.TreeMap.getD_eq_getD_getElem?,hholds.outgoing v]
    split
    · rfl
    · rename_i hv
      refine (map_eq_nil_iff.mpr (filter_eq_nil_iff.mpr fun edge hedge => ?_)).symm
      simpa using fun heq : edge.1=v => hv (heq ▸ (hclosed edge hedge).1)
  have hrun : run t.outgoing (nodes.length+1) (start nodes edges)=_ :=
    run_eq htable hedges (start_inv hedges) (fun v hv => mem_indegrees.mpr (.inl hv))
      (Nat.le_add_left _ _)
  rw [sort,tables,ht]
  simp only [Option.bind_eq_bind,Option.bind_some,hholds.indegree]
  change (run t.outgoing (nodes.length+1) (start nodes edges)).bind _=_
  rw [hrun]
  rfl

end Lawful
end Lookup
end MiniErp.Toposort
