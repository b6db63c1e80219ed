import Mathlib.Data.List.Count
import Mathlib.Data.List.Nodup
import Mathlib.Data.List.Perm.Subperm

/-! Topological sorting by counting open incoming edges. Nodes without open edges wait in a queue;
a node taken from it is put in the order and closes its outgoing edges. If every node is put in
the order, every edge goes forward in it. -/
namespace MiniErp.Toposort
open List
variable {α : Type} [Ord α] [DecidableEq α]

structure State (α : Type) [Ord α] where
  indegree : Std.TreeMap α Nat
  queue : List α
  order : List α

def openEdge (indegree : Std.TreeMap α Nat) (edge : α × α) : Std.TreeMap α Nat :=
  indegree.insert edge.2 (indegree.getD edge.2 0+1)

section
variable (nodes : List α) (edges : List (α × α))

def indegrees : Std.TreeMap α Nat :=
  edges.foldl openEdge (nodes.foldl (fun indegree node => indegree.insert node 0) ∅)

def outgoing (edges : List (α × α)) (node : α) : List α :=
  (edges.filter fun edge => decide (edge.1=node)).map (·.2)

def start : State α where
  indegree := indegrees nodes edges
  queue := ((indegrees nodes edges).toList.filter fun entry => entry.2 == 0).map (·.1)
  order := []

/-- Close one edge to a child, which is queued when it was the last one. -/
def release (s : State α) (child : α) : State α :=
  let count := s.indegree.getD child 0-1
  { s with
    indegree := s.indegree.insert child count
    queue := if count=0 then s.queue++[child] else s.queue }

def visit (edges : List (α × α)) (s : State α) (node : α) (rest : List α) : State α :=
  (outgoing edges node).foldl release { s with queue := rest, order := s.order++[node] }

def run (edges : List (α × α)) : Nat → State α → State α
  | 0, s => s
  | fuel+1, s =>
    match s.queue with
    | [] => s
    | node::rest => run edges fuel (visit edges s node rest)

def sort : Option (List α) :=
  let s := run edges nodes.length (start nodes edges)
  if s.order.length=nodes.length then some s.order else none

end

def Forward (edges : List (α × α)) (l : List α) : Prop :=
  ∀ edge∈edges, edge.2∈l → edge.1∈l ∧ l.idxOf edge.1<l.idxOf edge.2

omit [Ord α] in
theorem Forward.snoc {edges : List (α × α)} {l : List α} {v : α} (h : Forward edges l)
    (hv : ∀ edge∈edges, edge.2=v → edge.1∈l) : Forward edges (l++[v]) := by
  intro edge hedge htarget
  by_cases hold : edge.2∈l
  · obtain ⟨hsource,hlt⟩ := h edge hedge hold
    rw [idxOf_append_of_mem hsource,idxOf_append_of_mem hold]
    exact ⟨mem_append_left _ hsource,hlt⟩
  · have hnew : edge.2=v := by simpa [hold] using htarget
    have hsource := hv edge hedge hnew
    rw [idxOf_append_of_mem hsource,idxOf_append_of_notMem hold]
    have hlt := idxOf_lt_length_of_mem hsource
    exact ⟨mem_append_left _ hsource,by omega⟩

def openCount (edges : List (α × α)) (order : List α) (v : α) : Nat :=
  edges.countP fun edge => decide (edge.2=v ∧ edge.1∉order)

omit [Ord α] in
theorem openCount_snoc {edges : List (α × α)} {order : List α} {node : α} (hnew : node∉order)
    (v : α) : openCount edges order v =
      openCount edges (order++[node]) v+(outgoing edges node).count v := by
  unfold openCount outgoing
  induction edges with
  | nil => rfl
  | cons edge rest ih =>
    obtain ⟨source,target⟩ := edge
    rw [countP_cons,countP_cons,ih]
    by_cases hsource : source=node
    · subst hsource
      by_cases htarget : target=v
      · subst htarget
        simp [hnew]
        omega
      · simp [htarget]
    · simp [hsource]
      omega

/-- What holds between two steps, while the edges to the children `rest` are still to be closed:
a node has been queued exactly when it has no open edge. -/
structure Inv (nodes : List α) (edges : List (α × α)) (s : State α) (rest : List α) : Prop where
  nodup : (s.order++s.queue).Nodup
  known : ∀ v∈s.order++s.queue, v∈nodes
  count : ∀ v, s.indegree.getD v 0=openCount edges s.order v+rest.count v
  ready : ∀ v∈nodes, v∈s.order++s.queue ↔ s.indegree.getD v 0=0
  forward : Forward edges (s.order++s.queue)

section Lawful
variable [Std.TransOrd α] [Std.LawfulEqOrd α] {nodes : List α} {edges : List (α × α)}

theorem getD_insert (m : Std.TreeMap α Nat) (k v : α) (n : Nat) :
    (m.insert k n).getD v 0=if k=v then n else m.getD v 0 := by
  rw [Std.TreeMap.getD_insert]
  simp only [Std.LawfulEqCmp.compare_eq_iff_eq]

variable {s : State α}

theorem Inv.release {child : α} {rest : List α} (h : Inv nodes edges s (child::rest))
    (hchild : child∈nodes) : Inv nodes edges (release s child) rest := by
  have hcount := h.count child
  rw [count_cons_self] at hcount
  have hfresh : child∉s.order++s.queue := by
    rw [h.ready child hchild]
    omega
  have hindegree : ∀ v, (Toposort.release s child).indegree.getD v 0 =
      openCount edges s.order v+rest.count v := by
    intro v
    change (s.indegree.insert child (s.indegree.getD child 0-1)).getD v 0=_
    rw [getD_insert]
    split
    · rename_i hv
      subst hv
      omega
    · rename_i hv
      rw [h.count v,count_cons_of_ne hv]
  by_cases hlast : s.indegree.getD child 0-1=0
  · have hrelease : Toposort.release s child =
        { s with
          indegree := s.indegree.insert child (s.indegree.getD child 0-1)
          queue := s.queue++[child] } := by
      simp only [Toposort.release,if_pos hlast]
    have hopen : openCount edges s.order child=0 := by omega
    rw [hrelease] at hindegree ⊢
    constructor
    · rw [← append_assoc]
      exact h.nodup.append (nodup_singleton child) (disjoint_singleton.mpr hfresh)
    · intro v hv
      rw [← append_assoc,mem_append,mem_singleton] at hv
      rcases hv with hv | rfl
      · exact h.known v hv
      · exact hchild
    · exact hindegree
    · intro v hv
      rw [← append_assoc,mem_append,mem_singleton]
      by_cases heq : v=child
      · subst heq
        simp [hlast]
      · simp only [heq,or_false,h.ready v hv,getD_insert,Ne.symm heq,if_false]
    · rw [← append_assoc]
      refine h.forward.snoc fun edge hedge htarget => ?_
      have hsource := countP_eq_zero.mp hopen edge hedge
      simp only [htarget,true_and,decide_eq_true_eq,not_not] at hsource
      exact mem_append_left _ hsource
  · have hrelease : Toposort.release s child =
        { s with indegree := s.indegree.insert child (s.indegree.getD child 0-1) } := by
      simp only [Toposort.release,if_neg hlast]
    rw [hrelease] at hindegree ⊢
    refine ⟨h.nodup,h.known,hindegree,fun v hv => ?_,h.forward⟩
    by_cases heq : v=child
    · subst heq
      simp [hlast,hfresh]
    · simp only [h.ready v hv,getD_insert,Ne.symm heq,if_false]

theorem Inv.foldl_release {children : List α}
    (h : Inv nodes edges s children) (hchildren : ∀ c∈children, c∈nodes) :
    Inv nodes edges (children.foldl Toposort.release s) [] := by
  induction children generalizing s with
  | nil => exact h
  | cons child rest ih =>
    refine ih (h.release (hchildren child mem_cons_self)) ?_
    exact fun c hc => hchildren c (mem_cons_of_mem child hc)

theorem Inv.visit {node : α} {rest : List α} (h : Inv nodes edges s [])
    (hqueue : s.queue=node::rest) (hedges : ∀ edge∈edges, edge.2∈nodes) :
    Inv nodes edges (visit edges s node rest) [] := by
  have hlist : s.order++[node]++rest=s.order++s.queue := by simp [hqueue]
  have hfresh : node∉s.order := by
    have hnodup := h.nodup
    rw [hqueue,nodup_append] at hnodup
    exact fun hmem => hnodup.2.2 node hmem node mem_cons_self rfl
  have hopened : Inv nodes edges { s with queue := rest, order := s.order++[node] }
      (outgoing edges node) := by
    constructor
    · exact hlist ▸ h.nodup
    · exact hlist ▸ h.known
    · intro v
      change s.indegree.getD v 0=_
      rw [h.count v,openCount_snoc hfresh v]
      rfl
    · exact hlist ▸ h.ready
    · exact hlist ▸ h.forward
  refine hopened.foldl_release fun child hchild => ?_
  obtain ⟨edge,hedge,rfl⟩ := mem_map.mp hchild
  exact hedges edge (mem_filter.mp hedge).1

theorem Inv.run (hedges : ∀ edge∈edges, edge.2∈nodes) (fuel : Nat)
    (h : Inv nodes edges s []) : Inv nodes edges (run edges fuel s) [] := by
  induction fuel generalizing s with
  | zero => exact h
  | succ fuel ih =>
    rw [Toposort.run]
    split
    · exact h
    · rename_i node rest hqueue
      exact ih (h.visit hqueue hedges)

omit [DecidableEq α] in
theorem mem_foldl_openEdge (m : Std.TreeMap α Nat) (v : α) :
    v∈edges.foldl openEdge m ↔ v∈m ∨ v∈edges.map (·.2) := by
  induction edges generalizing m with
  | nil => simp
  | cons edge rest ih =>
    rw [foldl_cons,ih,openEdge,Std.TreeMap.mem_insert,
      Std.LawfulEqCmp.compare_eq_iff_eq,map_cons,mem_cons,eq_comm]
    tauto

theorem getD_foldl_openEdge (m : Std.TreeMap α Nat) (v : α) :
    (edges.foldl openEdge m).getD v 0=m.getD v 0+(edges.map (·.2)).count v := by
  induction edges generalizing m with
  | nil => simp
  | cons edge rest ih =>
    rw [foldl_cons,ih,openEdge,getD_insert,map_cons]
    by_cases heq : edge.2=v
    · subst heq
      simp
      omega
    · simp [heq]

omit [DecidableEq α] in
theorem mem_foldl_insert (l : List α) (m : Std.TreeMap α Nat) (v : α) :
    v∈l.foldl (fun indegree node => indegree.insert node 0) m ↔ v∈m ∨ v∈l := by
  induction l generalizing m with
  | nil => simp
  | cons node rest ih =>
    rw [foldl_cons,ih,Std.TreeMap.mem_insert,Std.LawfulEqCmp.compare_eq_iff_eq, mem_cons,eq_comm]
    tauto

theorem getD_foldl_insert (l : List α) {m : Std.TreeMap α Nat} {v : α} (h : m.getD v 0=0) :
    (l.foldl (fun indegree node => indegree.insert node 0) m).getD v 0=0 := by
  induction l generalizing m with
  | nil => exact h
  | cons node rest ih =>
    refine ih ?_
    rw [getD_insert]
    split
    · rfl
    · exact h

omit [DecidableEq α] in
theorem mem_start_queue (hedges : ∀ edge∈edges, edge.2∈nodes) (v : α) :
    v∈(start nodes edges).queue ↔ v∈nodes ∧ (indegrees nodes edges).getD v 0=0 := by
  have hmem : v∈indegrees nodes edges ↔ v∈nodes := by
    rw [indegrees,mem_foldl_openEdge,mem_foldl_insert]
    simp only [Std.TreeMap.not_mem_emptyc,false_or,or_iff_left_iff_imp,mem_map]
    rintro ⟨edge,hedge,rfl⟩
    exact hedges edge hedge
  change v∈((indegrees nodes edges).toList.filter _).map _ ↔ _
  simp only [mem_map,mem_filter,beq_iff_eq,Prod.exists, Std.TreeMap.mem_toList_iff_getElem?_eq_some]
  rw [← hmem,Std.TreeMap.mem_iff_isSome_getElem?,Std.TreeMap.getD_eq_getD_getElem?]
  constructor
  · rintro ⟨_,count,⟨hget,rfl⟩,rfl⟩
    rw [hget]
    exact ⟨rfl,rfl⟩
  · rintro ⟨hsome,hzero⟩
    obtain ⟨count,hget⟩ := Option.isSome_iff_exists.mp hsome
    rw [hget] at hzero
    exact ⟨v,count,⟨hget,hzero⟩,rfl⟩

theorem start_inv (hedges : ∀ edge∈edges, edge.2∈nodes) :
    Inv nodes edges (start nodes edges) [] := by
  have hcount : ∀ v, (indegrees nodes edges).getD v 0=openCount edges [] v := by
    intro v
    rw [indegrees,getD_foldl_openEdge,getD_foldl_insert nodes (by simp), List.count,countP_map]
    simp only [Nat.zero_add]
    exact countP_congr fun edge _ => by simp
  have hqueue := mem_start_queue hedges
  constructor
  · have hkeys : ((indegrees nodes edges).toList.map (·.1)).Nodup := by
      rw [Std.TreeMap.map_fst_toList_eq_keys]
      exact Std.TreeMap.nodup_keys
    exact hkeys.sublist (filter_sublist.map _)
  · exact fun v hv => ((hqueue v).mp hv).1
  · exact hcount
  · intro v hv
    rw [show (start nodes edges).order++(start nodes edges).queue=(start nodes edges).queue
      from rfl,hqueue v]
    exact and_iff_right hv
  · intro edge hedge htarget
    -- a node that waits at the start has no incoming edge at all
    have hzero := ((hqueue _).mp htarget).2
    rw [hcount,openCount,countP_eq_zero] at hzero
    simpa using hzero edge hedge

omit [Std.TransOrd α] [Std.LawfulEqOrd α] in
theorem Inv.length_le (h : Inv nodes edges s []) : s.order.length+s.queue.length≤nodes.length := by
  rw [← length_append]
  exact (subperm_of_subset h.nodup h.known).length_le

omit [DecidableEq α] [Std.TransOrd α] [Std.LawfulEqOrd α] in
theorem order_foldl_release (children : List α) (s : State α) :
    (children.foldl Toposort.release s).order=s.order := by
  induction children generalizing s with
  | nil => rfl
  | cons child rest ih => exact ih _

omit [Std.TransOrd α] [Std.LawfulEqOrd α] in
theorem order_visit (s : State α) (node : α) (rest : List α) :
    (Toposort.visit edges s node rest).order=s.order++[node] :=
  order_foldl_release _ _

theorem queue_run (hedges : ∀ edge∈edges, edge.2∈nodes) {fuel : Nat} (h : Inv nodes edges s [])
    (hfuel : nodes.length ≤ s.order.length+fuel) : (run edges fuel s).queue=[] := by
  induction fuel generalizing s with
  | zero =>
    have hle := h.length_le
    exact length_eq_zero_iff.mp (by rw [run]; omega)
  | succ fuel ih =>
    rw [Toposort.run]
    split
    · rename_i hqueue
      exact hqueue
    · rename_i node rest hqueue
      refine ih (h.visit hqueue hedges) ?_
      rw [order_visit,length_append,length_singleton]
      omega

/-- A sorted graph has every node once in the order, and every edge goes forward. -/
theorem sort_eq_some (hedges : ∀ edge∈edges, edge.2∈nodes) {order : List α}
    (h : sort nodes edges=some order) : order.Perm nodes ∧ Forward edges order := by
  unfold sort at h
  simp only [Option.ite_none_right_eq_some,Option.some.injEq] at h
  obtain ⟨hlength,rfl⟩ := h
  have hinv := (start_inv hedges).run hedges nodes.length
  have hle := hinv.length_le
  have hqueue : (run edges nodes.length (start nodes edges)).queue=[] :=
    length_eq_zero_iff.mp (by omega)
  have hnodup := hinv.nodup
  have hknown := hinv.known
  have hforward := hinv.forward
  rw [hqueue,append_nil] at hnodup hknown hforward
  exact ⟨(subperm_of_subset hnodup hknown).perm_of_length_le (Nat.le_of_eq hlength.symm),hforward⟩

omit [Ord α] [Std.TransOrd α] [Std.LawfulEqOrd α] in
/-- A list in which every edge goes forward leaves no room for a cycle. -/
theorem Forward.acyclic {order : List α} (h : Forward edges order)
    (hedges : ∀ edge∈edges, edge.2∈order) (v : α) :
    ¬Relation.TransGen (fun a b => (a, b)∈edges) v v := by
  have hlt : ∀ a b, Relation.TransGen (fun a b => (a, b)∈edges) a b →
      order.idxOf a<order.idxOf b := by
    intro a b hwalk
    induction hwalk with
    | single hedge => exact (h _ hedge (hedges _ hedge)).2
    | tail _ hedge ih => exact Nat.lt_trans ih (h _ hedge (hedges _ hedge)).2
  exact fun hcycle => absurd (hlt v v hcycle) (Nat.lt_irrefl _)

end Lawful

end MiniErp.Toposort
