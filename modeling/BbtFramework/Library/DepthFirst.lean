import Mathlib.Data.List.Nodup
import Mathlib.Logic.Relation

/-!
# Depth-first search

Two searches over a graph given by its successors.  `postOrder` lists the nodes
in the order in which a search finishes them; where the graph has no cycle every
node comes after its successors.  `reach` looks for one node and finds it when
there is a path.  The fuel bounds the depth, which the number of unmarked nodes
does as well.
-/

namespace BbtFramework.Library

variable {Node : Type} [DecidableEq Node] (successors : Node → List Node)

/-- An edge of the graph. -/
def Leads (first second : Node) : Prop :=
  second ∈ successors first

def Acyclic : Prop :=
  ∀ node, ¬Relation.TransGen (Leads successors) node node

def Closed (nodes : List Node) : Prop :=
  ∀ node ∈ nodes, ∀ next ∈ successors node, next ∈ nodes

/-- The nodes of a graph that a search has not marked. -/
def unmarked (nodes marked : List Node) : Nat :=
  (nodes.filter (fun node => node ∉ marked)).length

variable {successors}

omit [DecidableEq Node] in
/-- A smaller graph has no cycle either. -/
theorem Acyclic.mono {fewer : Node → List Node} (hacyclic : Acyclic successors)
    (hsubset : ∀ first second, Leads fewer first second → Leads successors first second) :
    Acyclic fewer :=
  fun node hcycle => hacyclic node (Relation.TransGen.mono hsubset node node hcycle)

omit [DecidableEq Node] in
/-- A path in a graph with one more edge avoids it or goes through it. -/
theorem path_of_insert {more : Node → List Node} {source target first last : Node}
    (hmore : ∀ first second, Leads more first second →
      Leads successors first second ∨ (first = source ∧ second = target))
    (hpath : Relation.TransGen (Leads more) first last) :
    Relation.TransGen (Leads successors) first last ∨
      (Relation.ReflTransGen (Leads successors) first source ∧
        Relation.ReflTransGen (Leads successors) target last) := by
  induction hpath with
  | single hstep =>
      obtain hold | ⟨rfl, rfl⟩ := hmore _ _ hstep
      · exact Or.inl (.single hold)
      · exact Or.inr ⟨.refl, .refl⟩
  | tail _ hstep ih =>
      obtain hold | ⟨rfl, rfl⟩ := hmore _ _ hstep
      · obtain hpath | ⟨hbefore, hafter⟩ := ih
        · exact Or.inl (hpath.tail hold)
        · exact Or.inr ⟨hbefore, hafter.tail hold⟩
      · obtain hpath | ⟨hbefore, -⟩ := ih
        · exact Or.inr ⟨hpath.to_reflTransGen, .refl⟩
        · exact Or.inr ⟨hbefore, .refl⟩

omit [DecidableEq Node] in
/-- An edge closes no cycle unless its source was reachable from its target. -/
theorem Acyclic.insert {more : Node → List Node} {source target : Node}
    (hacyclic : Acyclic successors)
    (hmore : ∀ first second, Leads more first second →
      Leads successors first second ∨ (first = source ∧ second = target))
    (hback : ¬Relation.ReflTransGen (Leads successors) target source) :
    Acyclic more := by
  intro node hcycle
  obtain hpath | ⟨hbefore, hafter⟩ := path_of_insert hmore hcycle
  · exact hacyclic node hpath
  · exact hback (hafter.trans hbefore)

theorem unmarked_le (nodes marked : List Node) : unmarked nodes marked ≤ nodes.length :=
  List.length_filter_le _ _

theorem unmarked_mono (nodes : List Node) {marked more : List Node} (hsubset : marked ⊆ more) :
    unmarked nodes more ≤ unmarked nodes marked := by
  apply List.Sublist.length_le
  apply List.monotone_filter_right
  intro node hmem
  rw [decide_eq_true_eq] at hmem ⊢
  exact fun hmarked => hmem (hsubset hmarked)

/-- Marking a node of the graph leaves fewer. -/
theorem unmarked_cons_lt {nodes marked : List Node} {node : Node}
    (hnode : node ∈ nodes) (hfresh : node ∉ marked) :
    unmarked nodes (node :: marked) < unmarked nodes marked := by
  have hsplit : nodes.filter (fun other => other ∉ node :: marked) =
      (nodes.filter (fun other => other ∉ marked)).filter (fun other => other ≠ node) := by
    rw [List.filter_filter]
    apply List.filter_congr
    intro other _
    simp [not_or]
  rw [unmarked, unmarked, hsplit]
  apply List.length_filter_lt_length_iff_exists.mpr
  exact ⟨node, List.mem_filter.mpr ⟨hnode, by simpa using hfresh⟩, by simp⟩

variable (successors)

/-- The state of a search: the nodes on its stack or finished, the finished ones
in order, and whether it has come back to its stack. -/
structure Search (Node : Type) where
  marked : List Node
  order : List Node
  hadCycle : Bool
  deriving DecidableEq, Repr

def dfs : Nat → Node → Search Node → Search Node
  | 0, _, search => search
  | fuel + 1, node, search =>
      let searched := (successors node).foldl (fun search next =>
        if next ∈ search.order then search
        else if next ∈ search.marked then { search with hadCycle := true }
        else dfs fuel next search)
        { search with marked := node :: search.marked }
      { searched with order := searched.order ++ [node] }

def postOrder (nodes : List Node) : Search Node :=
  nodes.foldl (fun search node =>
    if node ∈ search.marked then search
    else dfs successors (nodes.length + 1) node search) ⟨[], [], false⟩

def Finishes (before after : Search Node) : Prop :=
  ∃ found, after.order = before.order ++ found ∧ found.Nodup ∧
    (∀ node ∈ found, node ∉ before.marked) ∧
    ∀ node, node ∈ after.marked ↔ node ∈ before.marked ∨ node ∈ found

variable {successors} {before middle after : Search Node}

omit [DecidableEq Node] in
theorem Finishes.refl (search : Search Node) : Finishes search search :=
  ⟨[], (List.append_nil _).symm, List.nodup_nil, by simp, by simp⟩

omit [DecidableEq Node] in
theorem Finishes.trans (hfirst : Finishes before middle)
    (hsecond : Finishes middle after) : Finishes before after := by
  obtain ⟨found, horder, hnodup, hfresh, hmarked⟩ := hfirst
  obtain ⟨found', horder', hnodup', hfresh', hmarked'⟩ := hsecond
  refine ⟨found ++ found', ?_, ?_, ?_, ?_⟩
  · rw [horder', horder, List.append_assoc]
  · refine List.nodup_append.mpr ⟨hnodup, hnodup', ?_⟩
    rintro node hnode other hother rfl
    exact hfresh' node hother ((hmarked node).mpr (Or.inr hnode))
  · intro node hnode hbefore
    rcases List.mem_append.mp hnode with hnode | hnode
    · exact hfresh node hnode hbefore
    · exact hfresh' node hnode ((hmarked node).mpr (Or.inl hbefore))
  · intro node
    rw [hmarked', hmarked, List.mem_append, or_assoc]

omit [DecidableEq Node] in
theorem Finishes.marked_subset (hfinishes : Finishes before after) :
    before.marked ⊆ after.marked := by
  obtain ⟨found, -, -, -, hmarked⟩ := hfinishes
  exact fun node hnode => (hmarked node).mpr (Or.inl hnode)

omit [DecidableEq Node] in
theorem Finishes.order_subset (hfinishes : Finishes before after) :
    before.order ⊆ after.order := by
  obtain ⟨found, horder, -⟩ := hfinishes
  rw [horder]
  exact List.subset_append_left _ _

omit [DecidableEq Node] in
/-- What is on the stack after a search was on it before. -/
theorem Finishes.stack (hfinishes : Finishes before after) {node : Node}
    (hmarked : node ∈ after.marked) (hopen : node ∉ after.order) :
    node ∈ before.marked ∧ node ∉ before.order := by
  obtain ⟨found, horder, -, -, hmarks⟩ := hfinishes
  rw [horder, List.mem_append, not_or] at hopen
  exact ⟨((hmarks node).mp hmarked).resolve_right hopen.2, hopen.1⟩

omit [DecidableEq Node] in
/-- A stack that was empty is empty again. -/
theorem Finishes.settled (hfinishes : Finishes before after)
    (hbefore : before.marked ⊆ before.order) : after.marked ⊆ after.order := by
  intro node hmarked
  by_contra hopen
  obtain ⟨hstack, hunlisted⟩ := hfinishes.stack hmarked hopen
  exact hunlisted (hbefore hstack)

omit [DecidableEq Node] in
/-- A node is finished after the search below it. -/
theorem Finishes.finish {node : Node} (hfresh : node ∉ before.marked)
    (hfinishes : Finishes { before with marked := node :: before.marked } middle) :
    Finishes before { middle with order := middle.order ++ [node] } := by
  obtain ⟨found, horder, hnodup, hnew, hmarked⟩ := hfinishes
  refine ⟨found ++ [node], ?_, ?_, ?_, ?_⟩
  · simp only [horder, List.append_assoc]
  · refine List.nodup_append.mpr ⟨hnodup, List.nodup_singleton node, ?_⟩
    rintro other hother last hlast rfl
    obtain rfl := List.mem_singleton.mp hlast
    exact hnew other hother List.mem_cons_self
  · intro other hother hbefore
    rcases List.mem_append.mp hother with hother | hother
    · exact hnew other hother (List.mem_cons_of_mem _ hbefore)
    · obtain rfl := List.mem_singleton.mp hother
      exact hfresh hbefore
  · intro other
    rw [hmarked, List.mem_cons, List.mem_append, List.mem_singleton]
    tauto

/-! ## The calls that return

A derivation of `Scans` or `Orders` is a finite tree of recursive calls, each of which
has returned; the functions above are shown to follow one. -/

variable (successors)

inductive Scans : List Node → Search Node → Search Node → Prop where
  | done (search : Search Node) : Scans [] search search
  | listed {next : Node} {rest : List Node} {search last : Search Node}
      (hlisted : next ∈ search.order) (hrest : Scans rest search last) :
      Scans (next :: rest) search last
  | stacked {next : Node} {rest : List Node} {search last : Search Node}
      (hopen : next ∉ search.order) (hmarked : next ∈ search.marked)
      (hrest : Scans rest { search with hadCycle := true } last) :
      Scans (next :: rest) search last
  | descend {next : Node} {rest : List Node} {search middle last : Search Node}
      (hopen : next ∉ search.order) (hfresh : next ∉ search.marked)
      (hdeep : Scans (successors next)
        { search with marked := next :: search.marked } middle)
      (hrest : Scans rest { middle with order := middle.order ++ [next] } last) :
      Scans (next :: rest) search last

/-- The outer loop. -/
inductive Orders : List Node → Search Node → Search Node → Prop where
  | done (search : Search Node) : Orders [] search search
  | marked {node : Node} {rest : List Node} {search last : Search Node}
      (hmarked : node ∈ search.marked) (hrest : Orders rest search last) :
      Orders (node :: rest) search last
  | visit {node : Node} {rest : List Node} {search middle last : Search Node}
      (hfresh : node ∉ search.marked)
      (hdeep : Scans successors (successors node)
        { search with marked := node :: search.marked } middle)
      (hrest : Orders rest { middle with order := middle.order ++ [node] } last) :
      Orders (node :: rest) search last

variable {successors} {targets nodes : List Node}

omit [DecidableEq Node] in
theorem Scans.finishes (hscans : Scans successors targets before after) :
    Finishes before after := by
  induction hscans with
  | done search => exact .refl search
  | listed _ _ ih => exact ih
  | stacked _ _ _ ih => exact ih
  | descend _ hfresh _ _ ihdeep ihrest => exact (ihdeep.finish hfresh).trans ihrest

omit [DecidableEq Node] in
theorem Orders.finishes (horders : Orders successors targets before after) :
    Finishes before after := by
  induction horders with
  | done search => exact .refl search
  | marked _ _ ih => exact ih
  | visit hfresh hdeep _ ih => exact (hdeep.finishes.finish hfresh).trans ih

theorem dfs_scans (hclosed : Closed successors nodes) (fuel : Nat) (node : Node)
    (search : Search Node) (hnode : node ∈ nodes) (hfresh : node ∉ search.marked)
    (hfuel : unmarked nodes search.marked ≤ fuel) :
    ∃ last, Scans successors (successors node)
      { search with marked := node :: search.marked } last ∧
      dfs successors fuel node search = { last with order := last.order ++ [node] } := by
  induction fuel generalizing node search with
  | zero =>
      have hlt := unmarked_cons_lt hnode hfresh
      omega
  | succ fuel ih =>
      refine ⟨_, ?_, rfl⟩
      have hloop : ∀ (targets : List Node) (current : Search Node),
          targets ⊆ successors node → node :: search.marked ⊆ current.marked →
          Scans successors targets current (targets.foldl (fun search next =>
            if next ∈ search.order then search
            else if next ∈ search.marked then { search with hadCycle := true }
            else dfs successors fuel next search) current) := by
        intro targets
        induction targets with
        | nil => exact fun current _ _ => .done current
        | cons next rest ihrest =>
            intro current htargets hmarked
            have hrest := (List.cons_subset.mp htargets).2
            rw [List.foldl_cons]
            by_cases hlisted : next ∈ current.order
            · rw [if_pos hlisted]
              exact .listed hlisted (ihrest current hrest hmarked)
            rw [if_neg hlisted]
            by_cases hnext : next ∈ current.marked
            · rw [if_pos hnext]
              exact .stacked hlisted hnext (ihrest _ hrest hmarked)
            · rw [if_neg hnext]
              have hless : unmarked nodes current.marked ≤ fuel := by
                have hlt := unmarked_cons_lt hnode hfresh
                have hmono := unmarked_mono nodes hmarked
                omega
              obtain ⟨middle, hdeep, heq⟩ := ih next current
                (hclosed node hnode next (htargets List.mem_cons_self)) hnext hless
              rw [heq]
              refine .descend hlisted hnext hdeep (ihrest _ hrest ?_)
              intro other hother
              exact hdeep.finishes.marked_subset
                (List.mem_cons_of_mem next (hmarked hother))
      exact hloop (successors node) _ (fun _ hmem => hmem) (fun _ hmem => hmem)

/-- The search through a closed graph returns. -/
theorem postOrder_orders (hclosed : Closed successors nodes) :
    Orders successors nodes ⟨[], [], false⟩ (postOrder successors nodes) := by
  have hloop : ∀ (ids : List Node) (search : Search Node), ids ⊆ nodes →
      Orders successors ids search (ids.foldl (fun search node =>
        if node ∈ search.marked then search
        else dfs successors (nodes.length + 1) node search) search) := by
    intro ids
    induction ids with
    | nil => exact fun search _ => .done search
    | cons id rest ih =>
        intro search hsubset
        obtain ⟨hid, hrest⟩ := List.cons_subset.mp hsubset
        rw [List.foldl_cons]
        by_cases hmarked : id ∈ search.marked
        · rw [if_pos hmarked]
          exact .marked hmarked (ih search hrest)
        · rw [if_neg hmarked]
          obtain ⟨middle, hdeep, heq⟩ := dfs_scans hclosed (nodes.length + 1) id search hid
            hmarked (Nat.le_succ_of_le (unmarked_le nodes search.marked))
          rw [heq]
          exact .visit hmarked hdeep (ih _ hrest)
  exact hloop nodes _ (fun _ hmem => hmem)

/-- No node is listed twice. -/
theorem nodup_postOrder (hclosed : Closed successors nodes) :
    (postOrder successors nodes).order.Nodup := by
  obtain ⟨found, horder, hnodup, -⟩ := (postOrder_orders hclosed).finishes
  rw [horder]
  exact hnodup

omit [DecidableEq Node] in
/-- What the outer loop has been through is listed. -/
theorem Orders.listed (horders : Orders successors targets before after)
    (hbefore : before.marked ⊆ before.order) :
    after.marked ⊆ after.order ∧ targets ⊆ after.order := by
  induction horders with
  | done search => exact ⟨hbefore, List.nil_subset _⟩
  | marked hmarked hrest ih =>
      obtain ⟨hafter, htargets⟩ := ih hbefore
      refine ⟨hafter, List.cons_subset.mpr ⟨?_, htargets⟩⟩
      exact hrest.finishes.order_subset (hbefore hmarked)
  | @visit node rest search middle last hfresh hdeep hrest ih =>
      obtain ⟨hafter, htargets⟩ := ih ((hdeep.finishes.finish hfresh).settled hbefore)
      refine ⟨hafter, List.cons_subset.mpr ⟨?_, htargets⟩⟩
      exact hrest.finishes.order_subset (List.mem_append_right _ List.mem_cons_self)

/-- Every node is listed. -/
theorem mem_postOrder (hclosed : Closed successors nodes) {node : Node}
    (hnode : node ∈ nodes) : node ∈ (postOrder successors nodes).order :=
  ((postOrder_orders hclosed).listed (List.nil_subset _)).2 hnode

omit [DecidableEq Node] in
theorem Scans.subset (hclosed : Closed successors nodes)
    (hscans : Scans successors targets before after) (htargets : targets ⊆ nodes)
    (hbefore : before.order ⊆ nodes) : after.order ⊆ nodes := by
  induction hscans with
  | done search => exact hbefore
  | listed _ _ ih => exact ih (List.cons_subset.mp htargets).2 hbefore
  | stacked _ _ _ ih => exact ih (List.cons_subset.mp htargets).2 hbefore
  | descend _ _ _ _ ihdeep ihrest =>
      obtain ⟨hnext, hrest⟩ := List.cons_subset.mp htargets
      have hmiddle := ihdeep (fun other hother => hclosed _ hnext other hother) hbefore
      exact ihrest hrest (List.append_subset.mpr
        ⟨hmiddle, List.cons_subset.mpr ⟨hnext, List.nil_subset _⟩⟩)

omit [DecidableEq Node] in
theorem Orders.subset (hclosed : Closed successors nodes)
    (horders : Orders successors targets before after) (htargets : targets ⊆ nodes)
    (hbefore : before.order ⊆ nodes) : after.order ⊆ nodes := by
  induction horders with
  | done search => exact hbefore
  | marked _ _ ih => exact ih (List.cons_subset.mp htargets).2 hbefore
  | visit _ hdeep _ ih =>
      obtain ⟨hnode, hrest⟩ := List.cons_subset.mp htargets
      have hmiddle := hdeep.subset hclosed (hclosed _ hnode) hbefore
      exact ih hrest (List.append_subset.mpr
        ⟨hmiddle, List.cons_subset.mpr ⟨hnode, List.nil_subset _⟩⟩)

/-- Nothing else is listed. -/
theorem postOrder_subset (hclosed : Closed successors nodes) :
    (postOrder successors nodes).order ⊆ nodes :=
  (postOrder_orders hclosed).subset hclosed (fun _ hmem => hmem) (List.nil_subset _)

variable (successors)

def SuccessorsFirst (order : List Node) : Prop :=
  ∀ early node late, order = early ++ node :: late →
    ∀ next ∈ successors node, next ∈ early

variable {successors}

omit [DecidableEq Node] in
theorem SuccessorsFirst.sublist {order : List Node} {node next : Node}
    (hsorted : SuccessorsFirst successors order) (hnode : node ∈ order)
    (hnext : next ∈ successors node) : [next, node].Sublist order := by
  obtain ⟨early, late, rfl⟩ := List.append_of_mem hnode
  have hearly := hsorted early node late rfl next hnext
  exact (List.singleton_sublist.mpr hearly).append
    (List.singleton_sublist.mpr List.mem_cons_self)

omit [DecidableEq Node] in
theorem SuccessorsFirst.append {order : List Node} {node : Node}
    (hsorted : SuccessorsFirst successors order)
    (hnext : ∀ next ∈ successors node, next ∈ order) :
    SuccessorsFirst successors (order ++ [node]) := by
  intro early other late hsplit next hmem
  rcases List.eq_nil_or_concat late with rfl | ⟨rest, last, rfl⟩
  · obtain ⟨rfl, heq⟩ := List.append_inj' hsplit rfl
    obtain rfl := List.cons.inj heq |>.1
    exact hnext next hmem
  · have hlonger : order ++ [node] = (early ++ other :: rest) ++ [last] := by
      simpa using hsplit
    obtain ⟨rfl, -⟩ := List.append_inj' hlonger rfl
    exact hsorted early other rest rfl next hmem

/-- A node that leads to another one stands after it. -/
theorem SuccessorsFirst.idxOf_lt {order : List Node} {node next : Node}
    (hsorted : SuccessorsFirst successors order) (hnode : node ∈ order)
    (hnext : next ∈ successors node) : order.idxOf next < order.idxOf node := by
  obtain ⟨early, late, rfl, hfirst⟩ := List.eq_append_cons_of_mem hnode
  have hearly := hsorted early node late rfl next hnext
  rw [List.idxOf_append_of_mem hearly, List.idxOf_append_of_notMem hfirst]
  exact Nat.lt_of_lt_of_le (List.idxOf_lt_length_of_mem hearly) (Nat.le_add_right _ _)

/-- A graph whose nodes can be listed so has no cycle. -/
theorem SuccessorsFirst.acyclic {order : List Node}
    (hsorted : SuccessorsFirst successors order)
    (hlisted : ∀ node next, next ∈ successors node → next ∈ order) :
    Acyclic successors := by
  have hpath : ∀ first last, Relation.TransGen (Leads successors) first last →
      first ∈ order → order.idxOf last < order.idxOf first := by
    intro first last hpath hfirst
    induction hpath with
    | single hlead => exact hsorted.idxOf_lt hfirst hlead
    | tail hbefore hlead ih =>
        obtain ⟨middle, -, hmiddle⟩ := Relation.TransGen.tail'_iff.mp hbefore
        exact Nat.lt_trans (hsorted.idxOf_lt (hlisted middle _ hmiddle) hlead) ih
  intro node hcycle
  obtain ⟨before, -, hlead⟩ := Relation.TransGen.tail'_iff.mp hcycle
  exact Nat.lt_irrefl _ (hpath node node hcycle (hlisted before node hlead))

/-! ## Cycles -/

omit [DecidableEq Node] in
/-- A report is not taken back. -/
theorem Scans.quiet (hscans : Scans successors targets before after)
    (hquiet : after.hadCycle = false) : before.hadCycle = false := by
  induction hscans with
  | done search => exact hquiet
  | listed _ _ ih => exact ih hquiet
  | stacked _ _ _ ih => cases ih hquiet
  | descend _ _ _ _ ihdeep ihrest => exact ihdeep (ihrest hquiet)

omit [DecidableEq Node] in
theorem Orders.quiet (horders : Orders successors targets before after)
    (hquiet : after.hadCycle = false) : before.hadCycle = false := by
  induction horders with
  | done search => exact hquiet
  | marked _ _ ih => exact ih hquiet
  | visit _ hdeep _ ih => exact hdeep.quiet (ih hquiet)

omit [DecidableEq Node] in
/-- A search that reports no cycle lists every node after its successors. -/
theorem Scans.sorted (hscans : Scans successors targets before after)
    (hquiet : after.hadCycle = false)
    (hsorted : SuccessorsFirst successors before.order) :
    targets ⊆ after.order ∧ SuccessorsFirst successors after.order := by
  induction hscans with
  | done search => exact ⟨List.nil_subset _, hsorted⟩
  | listed hlisted hrest ih =>
      obtain ⟨htargets, hafter⟩ := ih hquiet hsorted
      exact ⟨List.cons_subset.mpr ⟨hrest.finishes.order_subset hlisted, htargets⟩, hafter⟩
  | stacked _ _ hrest _ => cases hrest.quiet hquiet
  | descend _ _ _ hrest ihdeep ihrest =>
      obtain ⟨hdeeper, hmiddle⟩ := ihdeep (hrest.quiet hquiet) hsorted
      obtain ⟨htargets, hafter⟩ := ihrest hquiet (hmiddle.append hdeeper)
      refine ⟨List.cons_subset.mpr ⟨?_, htargets⟩, hafter⟩
      exact hrest.finishes.order_subset (List.mem_append_right _ List.mem_cons_self)

omit [DecidableEq Node] in
theorem Orders.sorted (horders : Orders successors targets before after)
    (hquiet : after.hadCycle = false)
    (hsorted : SuccessorsFirst successors before.order) :
    SuccessorsFirst successors after.order := by
  induction horders with
  | done search => exact hsorted
  | marked _ _ ih => exact ih hquiet hsorted
  | visit _ hdeep hrest ih =>
      obtain ⟨hdeeper, hmiddle⟩ := hdeep.sorted (hrest.quiet hquiet) hsorted
      exact ih hquiet (hmiddle.append hdeeper)

/-- The nodes on the stack of a search lead to `node`. -/
def StackLeads (successors : Node → List Node) (search : Search Node) (node : Node) :
    Prop :=
  ∀ other ∈ search.marked, other ∉ search.order →
    Relation.ReflTransGen (Leads successors) other node

omit [DecidableEq Node] in
theorem StackLeads.finishes {node : Node} (hstack : StackLeads successors before node)
    (hfinishes : Finishes before after) : StackLeads successors after node := by
  intro other hmarked hopen
  obtain ⟨hbefore, hunlisted⟩ := hfinishes.stack hmarked hopen
  exact hstack other hbefore hunlisted

omit [DecidableEq Node] in
theorem StackLeads.push {node next : Node} (hstack : StackLeads successors before node)
    (hlead : Leads successors node next) :
    StackLeads successors { before with marked := next :: before.marked } next := by
  intro other hmarked hopen
  rcases List.mem_cons.mp hmarked with rfl | hmarked
  · exact .refl
  · exact (hstack other hmarked hopen).tail hlead

omit [DecidableEq Node] in
/-- A report means a cycle: the search has come back to its stack. -/
theorem Scans.not_acyclic {node : Node} (hscans : Scans successors targets before after)
    (htargets : targets ⊆ successors node) (hstack : StackLeads successors before node)
    (hreport : after.hadCycle = true) :
    before.hadCycle = true ∨ ¬Acyclic successors := by
  induction hscans generalizing node with
  | done search => exact Or.inl hreport
  | listed _ _ ih => exact ih (List.cons_subset.mp htargets).2 hstack hreport
  | @stacked next rest search last hopen hmarked _ _ =>
      refine Or.inr (fun hacyclic => hacyclic next ?_)
      exact .tail' (hstack next hmarked hopen) (List.cons_subset.mp htargets).1
  | @descend next rest search middle last _ hfresh hdeep _ ihdeep ihrest =>
      obtain ⟨hlead, hrest⟩ := List.cons_subset.mp htargets
      have hpushed : StackLeads successors
          { search with marked := next :: search.marked } next := hstack.push hlead
      have hmiddle : StackLeads successors
          { middle with order := middle.order ++ [next] } node :=
        hstack.finishes (hdeep.finishes.finish hfresh)
      obtain hbefore | hcycle := ihrest hrest hmiddle hreport
      · exact ihdeep (fun _ hmem => hmem) hpushed hbefore
      · exact Or.inr hcycle

omit [DecidableEq Node] in
theorem Orders.not_acyclic (horders : Orders successors targets before after)
    (hbefore : before.marked ⊆ before.order) (hreport : after.hadCycle = true) :
    before.hadCycle = true ∨ ¬Acyclic successors := by
  induction horders with
  | done search => exact Or.inl hreport
  | marked _ _ ih => exact ih hbefore hreport
  | @visit node rest search middle last hfresh hdeep _ ih =>
      have hstack : StackLeads successors
          { search with marked := node :: search.marked } node := by
        intro other hmarked hopen
        rcases List.mem_cons.mp hmarked with rfl | hmarked
        · exact .refl
        · exact absurd (hbefore hmarked) hopen
      obtain hdeeper | hcycle :=
        ih ((hdeep.finishes.finish hfresh).settled hbefore) hreport
      · exact hdeep.not_acyclic (fun _ hmem => hmem) hstack hdeeper
      · exact Or.inr hcycle

omit [DecidableEq Node] in
theorem successorsFirst_nil : SuccessorsFirst successors [] := by
  intro early node late hsplit
  simp at hsplit

theorem postOrder_sorted (hclosed : Closed successors nodes)
    (hacyclic : Acyclic successors) :
    SuccessorsFirst successors (postOrder successors nodes).order := by
  have horders := postOrder_orders hclosed
  have hquiet : (postOrder successors nodes).hadCycle = false := by
    by_contra hreport
    obtain hbefore | hcycle := horders.not_acyclic (List.nil_subset _)
      (eq_true_of_ne_false hreport)
    · cases hbefore
    · exact hcycle hacyclic
  exact horders.sorted hquiet successorsFirst_nil

/-- Where every edge ends in one of the nodes, a cycle is reported exactly when there
is one. -/
theorem postOrder_hadCycle (hends : ∀ node next, next ∈ successors node → next ∈ nodes) :
    (postOrder successors nodes).hadCycle = true ↔ ¬Acyclic successors := by
  have hclosed : Closed successors nodes := fun node _ => hends node
  have horders := postOrder_orders hclosed
  constructor
  · intro hreport
    obtain hbefore | hcycle := horders.not_acyclic (List.nil_subset _) hreport
    · cases hbefore
    · exact hcycle
  · intro hcycle
    by_contra hreport
    refine hcycle ((horders.sorted (eq_false_of_ne_true hreport)
      successorsFirst_nil).acyclic ?_)
    exact fun node next hnext => mem_postOrder hclosed (hends node next hnext)

variable (successors)

/-- The nodes marked by a search for `goal` and whether it was met. -/
def reach (goal : Node) : Nat → Node → List Node × Bool → List Node × Bool
  | 0, _, search => search
  | fuel + 1, node, (marked, found) =>
      if node = goal then (marked, true)
      else
        (successors node).foldl (fun search next =>
          if search.2 ∨ next ∈ search.1 then search
          else reach goal fuel next search) (node :: marked, found)

structure Missed (goal : Node) (before after : List Node) : Prop where
  marked : before ⊆ after
  goal : goal ∈ after → goal ∈ before
  closed : ∀ node ∈ after, node ∉ before → ∀ next ∈ successors node, next ∈ after

variable {successors} {goal : Node}

omit [DecidableEq Node] in
theorem Missed.refl (marked : List Node) : Missed successors goal marked marked :=
  ⟨fun _ hmem => hmem, id, fun _ hmem hnot => absurd hmem hnot⟩

theorem Missed.trans {first second third : List Node}
    (hfirst : Missed successors goal first second)
    (hsecond : Missed successors goal second third) :
    Missed successors goal first third := by
  refine ⟨fun _ hmem => hsecond.marked (hfirst.marked hmem),
    fun hgoal => hfirst.goal (hsecond.goal hgoal), ?_⟩
  intro node hnode hnew next hnext
  by_cases hmiddle : node ∈ second
  · exact hsecond.marked (hfirst.closed node hmiddle hnew next hnext)
  · exact hsecond.closed node hnode hmiddle next hnext

/-- With enough fuel a search that does not meet the goal has marked its first
node and all that follows. -/
theorem reach_missed {nodes : List Node} (hclosed : Closed successors nodes)
    (fuel : Nat) (node : Node) (marked : List Node) (hnode : node ∈ nodes)
    (hfresh : node ∉ marked) (hfuel : unmarked nodes marked ≤ fuel)
    (hmissed : (reach successors goal fuel node (marked, false)).2 = false) :
    node ∈ (reach successors goal fuel node (marked, false)).1 ∧
      Missed successors goal marked
        (reach successors goal fuel node (marked, false)).1 := by
  induction fuel generalizing node marked with
  | zero =>
      have hlt := unmarked_cons_lt hnode hfresh
      omega
  | succ fuel ih =>
      by_cases hgoal : node = goal
      · simp [reach, hgoal] at hmissed
      have hlt := unmarked_cons_lt hnode hfresh
      -- A loop that has found the goal keeps it.
      have hfound : ∀ (targets : List Node) (current : List Node),
          (targets.foldl (fun search next =>
            if search.2 ∨ next ∈ search.1 then search
            else reach successors goal fuel next search) (current, true)).2 = true := by
        intro targets
        induction targets with
        | nil => exact fun _ => rfl
        | cons next rest ihrest =>
            intro current
            rw [List.foldl_cons, if_pos (Or.inl rfl)]
            exact ihrest current
      have hloop : ∀ (targets : List Node) (current : List Node),
          (∀ next ∈ targets, next ∈ successors node) →
          node :: marked ⊆ current →
          (targets.foldl (fun search next =>
            if search.2 ∨ next ∈ search.1 then search
            else reach successors goal fuel next search) (current, false)).2 = false →
          ∃ last, last = (targets.foldl (fun search next =>
              if search.2 ∨ next ∈ search.1 then search
              else reach successors goal fuel next search) (current, false)).1 ∧
            Missed successors goal current last ∧ ∀ next ∈ targets, next ∈ last := by
        intro targets
        induction targets with
        | nil => exact fun current _ _ _ => ⟨current, rfl, .refl current, by simp⟩
        | cons next rest ihrest =>
            intro current htargets hcurrent hnone
            have hrest := fun other hmem => htargets other (List.mem_cons_of_mem next hmem)
            rw [List.foldl_cons] at hnone ⊢
            by_cases hmarked : next ∈ current
            · rw [if_pos (Or.inr hmarked)] at hnone ⊢
              obtain ⟨last, hlast, hmiss, hall⟩ := ihrest current hrest hcurrent hnone
              refine ⟨last, hlast, hmiss, ?_⟩
              intro other hother
              rcases List.mem_cons.mp hother with rfl | hother
              · exact hmiss.marked hmarked
              · exact hall other hother
            · have hskip : ¬(((current, false) : List Node × Bool).2 = true ∨
                  next ∈ ((current, false) : List Node × Bool).1) := by simp [hmarked]
              rw [if_neg hskip] at hnone ⊢
              cases hsearch : reach successors goal fuel next (current, false) with
              | mk middle found =>
                  rw [hsearch] at hnone
                  cases found with
                  | true =>
                      rw [hfound] at hnone
                      cases hnone
                  | false =>
                      have hless : unmarked nodes current ≤ fuel := by
                        have hmono := unmarked_mono nodes hcurrent
                        omega
                      have hstep := ih next current
                        (hclosed node hnode next (htargets next List.mem_cons_self))
                        hmarked hless (by rw [hsearch])
                      rw [hsearch] at hstep
                      obtain ⟨last, hlast, hmiss, hall⟩ := ihrest middle hrest
                        (fun _ hmem => hstep.2.marked (hcurrent hmem)) hnone
                      refine ⟨last, hlast, hstep.2.trans hmiss, ?_⟩
                      intro other hother
                      rcases List.mem_cons.mp hother with rfl | hother
                      · exact hmiss.marked hstep.1
                      · exact hall other hother
      simp only [reach, if_neg hgoal] at hmissed ⊢
      obtain ⟨last, hlast, hmiss, hall⟩ := hloop (successors node) (node :: marked)
        (fun _ hmem => hmem) (fun _ hmem => hmem) hmissed
      rw [← hlast]
      refine ⟨hmiss.marked List.mem_cons_self, ?_, ?_, ?_⟩
      · exact fun _ hmem => hmiss.marked (List.mem_cons_of_mem node hmem)
      · intro hin
        rcases List.mem_cons.mp (hmiss.goal hin) with heq | hin
        · exact absurd heq.symm hgoal
        · exact hin
      · intro other hother hnew next hnext
        by_cases heq : other = node
        · subst heq
          exact hall next hnext
        · exact hmiss.closed other hother (by simp [heq, hnew]) next hnext

/-- A search from a node of a closed graph that does not meet the goal shows
that there is no path to it. -/
theorem not_reachable_of_reach {nodes : List Node} (hclosed : Closed successors nodes)
    {node : Node} (hnode : node ∈ nodes) {fuel : Nat} (hfuel : nodes.length ≤ fuel)
    (hmissed : (reach successors goal fuel node ([], false)).2 = false) :
    ¬Relation.ReflTransGen (Leads successors) node goal := by
  obtain ⟨hmem, hmiss⟩ := reach_missed hclosed fuel node [] hnode (by simp)
    (Nat.le_trans (unmarked_le nodes []) hfuel) hmissed
  have hreached : ∀ last, Relation.ReflTransGen (Leads successors) node last →
      last ∈ (reach successors goal fuel node ([], false)).1 := by
    intro last hpath
    induction hpath with
    | refl => exact hmem
    | tail _ hstep ih => exact hmiss.closed _ ih (by simp) _ hstep
  intro hpath
  simpa using hmiss.goal (hreached goal hpath)

/-- What a search finds is at the end of a path. -/
theorem path_of_reach (fuel : Nat) (node : Node) (search : List Node × Bool)
    (hfound : (reach successors goal fuel node search).2 = true) :
    search.2 = true ∨ Relation.ReflTransGen (Leads successors) node goal := by
  induction fuel generalizing node search with
  | zero => exact Or.inl hfound
  | succ fuel ih =>
      obtain ⟨marked, found⟩ := search
      have hloop : ∀ (targets : List Node) (current : List Node × Bool),
          targets ⊆ successors node →
          (targets.foldl (fun search next =>
            if search.2 ∨ next ∈ search.1 then search
            else reach successors goal fuel next search) current).2 = true →
          current.2 = true ∨ Relation.ReflTransGen (Leads successors) node goal := by
        intro targets
        induction targets with
        | nil => exact fun current _ hcurrent => Or.inl hcurrent
        | cons next rest ihrest =>
            intro current htargets hlast
            obtain ⟨hlead, hrest⟩ := List.cons_subset.mp htargets
            rw [List.foldl_cons] at hlast
            obtain hmiddle | hpath := ihrest _ hrest hlast
            · split at hmiddle
              · exact Or.inl hmiddle
              · exact (ih next current hmiddle).imp_right (.head hlead)
            · exact Or.inr hpath
      simp only [reach] at hfound
      split at hfound
      case isTrue hgoal => exact Or.inr (hgoal ▸ .refl)
      case isFalse =>
        exact hloop (successors node) (node :: marked, found) (fun _ hmem => hmem) hfound

/-- In a closed graph a search finds the goal exactly when there is a path to it. -/
theorem reach_iff {nodes : List Node} (hclosed : Closed successors nodes) {node : Node}
    (hnode : node ∈ nodes) {fuel : Nat} (hfuel : nodes.length ≤ fuel) :
    (reach successors goal fuel node ([], false)).2 = true ↔
      Relation.ReflTransGen (Leads successors) node goal := by
  constructor
  · intro hfound
    exact (path_of_reach fuel node ([], false) hfound).resolve_left (by simp)
  · intro hpath
    by_contra hmissed
    exact not_reachable_of_reach hclosed hnode hfuel (eq_false_of_ne_true hmissed) hpath

end BbtFramework.Library
