import BbtFramework.Error
import BbtFramework.Library.KeyedStacks
import BbtFramework.Library.Machine

/-!
# Request scopes

A scope binds a request context to the coroutine that builds it, or to the
thread when no coroutine runs, for as long as the scope lives.  The scopes of
one coroutine form a stack that may be taken apart in any order and from any
thread.
-/

namespace BbtFramework.Inbound

open BbtFramework.Library

/-- Who executes: the id of the current coroutine, 0 outside of coroutines, and the
thread it runs on at this moment. -/
structure Execution where
  coroutineId : UInt64
  threadId : Nat
  deriving DecidableEq, Repr

/-- Moments of one coroutine, on whichever threads, or of one thread outside of
coroutines. -/
def Execution.Same (first later : Execution) : Prop :=
  first.coroutineId = later.coroutineId ∧
    (first.coroutineId = 0 → first.threadId = later.threadId)

instance (first later : Execution) : Decidable (first.Same later) :=
  inferInstanceAs (Decidable (_ ∧ _))

/-- An entry of a stack; the owner is the address of its scope. -/
structure ScopeEntry (Context : Type) where
  owner : Nat
  ctx : Context
  deriving DecidableEq, Repr

/-- A scope knows the table its entry is in. -/
structure RequestScope (Context : Type) where
  ctx : Option Context
  coBound : Bool
  coId : UInt64
  threadId : Nat
  bound : coBound = (coId != 0)

structure ScopeTables (Context : Type) where
  coScopes : KeyedStacks UInt64 (ScopeEntry Context)
  threadScopes : KeyedStacks Nat (ScopeEntry Context)

section

variable {Context : Type}

def eraseScopeEntry {Key : Type} [DecidableEq Key]
    (map : KeyedStacks Key (ScopeEntry Context)) (key : Key) (owner : Nat) :
    KeyedStacks Key (ScopeEntry Context) :=
  map.remove key fun entry => entry.owner == owner

/-- What the constructor stores in the scope; a scope of no context stays as it was
declared. -/
def RequestScope.make (ctx : Option Context) (current : Execution) : RequestScope Context :=
  match ctx with
  | none => { ctx := none, coBound := false, coId := 0, threadId := 0, bound := rfl }
  | some ctx =>
      { ctx := some ctx
        coBound := current.coroutineId != 0
        coId := current.coroutineId
        threadId := current.threadId
        bound := rfl }

/-- The constructor of the scope at `this`. -/
def ScopeTables.construct (tables : ScopeTables Context) (this : Nat)
    (scope : RequestScope Context) : ScopeTables Context :=
  match scope.ctx with
  | none => tables
  | some ctx =>
      if scope.coBound then
        { tables with coScopes := tables.coScopes.push scope.coId ⟨this, ctx⟩ }
      else
        { tables with threadScopes := tables.threadScopes.push scope.threadId ⟨this, ctx⟩ }

/-- The destructor of the scope at `this`; it does not look at who runs it. -/
def ScopeTables.destruct (tables : ScopeTables Context) (this : Nat)
    (scope : RequestScope Context) : ScopeTables Context :=
  match scope.ctx with
  | none => tables
  | some _ =>
      if scope.coBound then
        { tables with coScopes := eraseScopeEntry tables.coScopes scope.coId this }
      else
        { tables with threadScopes := eraseScopeEntry tables.threadScopes scope.threadId this }

/-- `CurrentRequestContext`. -/
def currentRequestContext [Infra] (tables : ScopeTables Context) (current : Execution) :
    Except Error Context :=
  let entry :=
    if current.coroutineId != 0 then tables.coScopes.top current.coroutineId
    else tables.threadScopes.top current.threadId
  match entry with
  | some entry => .ok entry.ctx
  | none =>
      .error (makeError .invalidContext
        "no managed request context bound to current coroutine/thread")

/-- A scope that has been built and not destroyed, with the execution that built it. -/
structure LivingScope (Context : Type) where
  address : Nat
  creator : Execution
  scope : RequestScope Context
  made : scope = RequestScope.make scope.ctx creator

/-- The tables and the living scopes, the latest last. -/
structure ScopeWorld (Context : Type) where
  tables : ScopeTables Context
  living : List (LivingScope Context)

inductive ScopeStep (Context : Type) where
  | construct (address : Nat) (ctx : Option Context) (current : Execution)
  | destruct (address : Nat)

theorem RequestScope.make_ctx (ctx : Option Context) (current : Execution) :
    (RequestScope.make ctx current).ctx = ctx := by
  cases ctx with
  | none => rfl
  | some ctx => rfl

def LivingScope.build (address : Nat) (ctx : Option Context) (current : Execution) :
    LivingScope Context where
  address := address
  creator := current
  scope := RequestScope.make ctx current
  made := by rw [RequestScope.make_ctx]

/-- Scopes come and go in any order; no two live at one address. -/
def scopeMachine (Context : Type) : Machine (ScopeWorld Context) (ScopeStep Context) where
  init world := world = ⟨⟨∅, ∅⟩, []⟩
  next world
    | .construct address ctx current =>
        if world.living.any fun scope => scope.address == address then none
        else
          let row := LivingScope.build address ctx current
          some ⟨world.tables.construct address row.scope, world.living ++ [row]⟩
    | .destruct address =>
        match world.living.find? fun row => row.address == address with
        | none => none
        | some row =>
            some ⟨world.tables.destruct address row.scope,
              world.living.eraseP fun row => row.address == address⟩

def ScopeWorld.latest (world : ScopeWorld Context) (current : Execution) : Option Context :=
  (world.living.filterMap fun row =>
    if row.creator.Same current then row.scope.ctx else none).getLast?

/-! ## The tables hold the living scopes -/

def LivingScope.coRow (row : LivingScope Context) : Option (UInt64 × ScopeEntry Context) :=
  if row.scope.coBound then row.scope.ctx.map fun ctx => (row.scope.coId, ⟨row.address, ctx⟩)
  else none

def LivingScope.threadRow (row : LivingScope Context) : Option (Nat × ScopeEntry Context) :=
  if row.scope.coBound then none
  else row.scope.ctx.map fun ctx => (row.scope.threadId, ⟨row.address, ctx⟩)

/-- Every stack holds the living scopes of its key in the order they were built. -/
structure Registered (world : ScopeWorld Context) : Prop where
  addresses : (world.living.map LivingScope.address).Nodup
  coScopes : world.tables.coScopes.Holds (world.living.filterMap LivingScope.coRow)
  threadScopes : world.tables.threadScopes.Holds (world.living.filterMap LivingScope.threadRow)

inductive Enters (row : LivingScope Context) : Prop where
  | nowhere (hctx : row.scope.ctx = none) (hco : row.coRow = none)
      (hthread : row.threadRow = none)
      (hconstruct : ∀ tables, ScopeTables.construct tables row.address row.scope = tables)
      (hdestruct : ∀ tables, ScopeTables.destruct tables row.address row.scope = tables) :
      Enters row
  | coroutine (entry : ScopeEntry Context) (howner : entry.owner = row.address)
      (hco : row.coRow = some (row.scope.coId, entry)) (hthread : row.threadRow = none)
      (hconstruct : ∀ tables, ScopeTables.construct tables row.address row.scope =
        { tables with coScopes := tables.coScopes.push row.scope.coId entry })
      (hdestruct : ∀ tables, ScopeTables.destruct tables row.address row.scope =
        { tables with coScopes := eraseScopeEntry tables.coScopes row.scope.coId row.address }) :
      Enters row
  | thread (entry : ScopeEntry Context) (howner : entry.owner = row.address)
      (hco : row.coRow = none) (hthread : row.threadRow = some (row.scope.threadId, entry))
      (hconstruct : ∀ tables, ScopeTables.construct tables row.address row.scope =
        { tables with threadScopes := tables.threadScopes.push row.scope.threadId entry })
      (hdestruct : ∀ tables, ScopeTables.destruct tables row.address row.scope =
        { tables with
          threadScopes := eraseScopeEntry tables.threadScopes row.scope.threadId row.address }) :
      Enters row

theorem LivingScope.enters (row : LivingScope Context) : Enters row := by
  cases hctx : row.scope.ctx with
  | none =>
      exact .nowhere hctx (by simp [coRow, hctx]) (by simp [threadRow, hctx])
        (fun tables => by simp [ScopeTables.construct, hctx])
        (fun tables => by simp [ScopeTables.destruct, hctx])
  | some ctx =>
      cases hbound : row.scope.coBound with
      | true =>
          exact .coroutine ⟨row.address, ctx⟩ rfl (by simp [coRow, hctx, hbound])
            (by simp [threadRow, hbound])
            (fun tables => by simp [ScopeTables.construct, hctx, hbound])
            (fun tables => by simp [ScopeTables.destruct, hctx, hbound])
      | false =>
          exact .thread ⟨row.address, ctx⟩ rfl (by simp [coRow, hbound])
            (by simp [threadRow, hctx, hbound])
            (fun tables => by simp [ScopeTables.construct, hctx, hbound])
            (fun tables => by simp [ScopeTables.destruct, hctx, hbound])

theorem owner_of_coRow {row : LivingScope Context} {key : UInt64} {entry : ScopeEntry Context}
    (hrow : row.coRow = some (key, entry)) : entry.owner = row.address := by
  cases row.enters with
  | nowhere _ hco => rw [hco] at hrow; cases hrow
  | coroutine _ howner hco =>
      rw [hco] at hrow
      cases hrow
      exact howner
  | thread _ _ hco => rw [hco] at hrow; cases hrow

theorem owner_of_threadRow {row : LivingScope Context} {key : Nat}
    {entry : ScopeEntry Context} (hrow : row.threadRow = some (key, entry)) :
    entry.owner = row.address := by
  cases row.enters with
  | nowhere _ _ hthread => rw [hthread] at hrow; cases hrow
  | coroutine _ _ _ hthread => rw [hthread] at hrow; cases hrow
  | thread _ howner _ hthread =>
      rw [hthread] at hrow
      cases hrow
      exact howner

theorem Registered.construct {world : ScopeWorld Context} (hreg : Registered world)
    {row : LivingScope Context} (hfresh : row.address ∉ world.living.map LivingScope.address) :
    Registered ⟨world.tables.construct row.address row.scope, world.living ++ [row]⟩ := by
  have haddresses : ((world.living ++ [row]).map LivingScope.address).Nodup := by
    rw [List.map_append, List.map_singleton, ← List.concat_eq_append]
    exact List.Nodup.concat hfresh hreg.addresses
  cases row.enters with
  | nowhere _ hco hthread hconstruct =>
      rw [hconstruct]
      refine ⟨haddresses, ?_, ?_⟩
      · rw [List.filterMap_append, List.filterMap_cons_none hco, List.filterMap_nil,
          List.append_nil]
        exact hreg.coScopes
      · rw [List.filterMap_append, List.filterMap_cons_none hthread, List.filterMap_nil,
          List.append_nil]
        exact hreg.threadScopes
  | coroutine entry _ hco hthread hconstruct =>
      rw [hconstruct]
      refine ⟨haddresses, ?_, ?_⟩
      · rw [List.filterMap_append, List.filterMap_cons_some hco, List.filterMap_nil]
        exact hreg.coScopes.push _ _
      · rw [List.filterMap_append, List.filterMap_cons_none hthread, List.filterMap_nil,
          List.append_nil]
        exact hreg.threadScopes
  | thread entry _ hco hthread hconstruct =>
      rw [hconstruct]
      refine ⟨haddresses, ?_, ?_⟩
      · rw [List.filterMap_append, List.filterMap_cons_none hco, List.filterMap_nil,
          List.append_nil]
        exact hreg.coScopes
      · rw [List.filterMap_append, List.filterMap_cons_some hthread, List.filterMap_nil]
        exact hreg.threadScopes.push _ _

/-- A scope is taken out of the middle of its stack: no other entry has its address. -/
theorem Registered.destruct {tables : ScopeTables Context}
    {before after : List (LivingScope Context)} {row : LivingScope Context}
    (hreg : Registered ⟨tables, before ++ row :: after⟩) :
    Registered ⟨tables.destruct row.address row.scope, before ++ after⟩ := by
  obtain ⟨haddresses, hcoScopes, hthreadScopes⟩ := hreg
  have hothers : ∀ other ∈ after, other.address ≠ row.address := by
    intro other hother heq
    rw [List.map_append, List.map_cons] at haddresses
    have hnodup := (List.nodup_append.mp haddresses).2.1
    refine (List.nodup_cons.mp hnodup).1 ?_
    rw [← heq]
    exact List.mem_map_of_mem hother
  have hrest : ((before ++ after).map LivingScope.address).Nodup := by
    refine haddresses.sublist (List.Sublist.map _ ?_)
    exact (List.Sublist.refl before).append (List.sublist_cons_self row after)
  cases row.enters with
  | nowhere _ hco hthread _ hdestruct =>
      rw [hdestruct]
      simp only [List.filterMap_append, List.filterMap_cons_none hco] at hcoScopes
      simp only [List.filterMap_append, List.filterMap_cons_none hthread] at hthreadScopes
      refine ⟨hrest, ?_, ?_⟩
      · rw [List.filterMap_append]
        exact hcoScopes
      · rw [List.filterMap_append]
        exact hthreadScopes
  | coroutine entry howner hco hthread _ hdestruct =>
      rw [hdestruct]
      simp only [List.filterMap_append, List.filterMap_cons_some hco] at hcoScopes
      simp only [List.filterMap_append, List.filterMap_cons_none hthread] at hthreadScopes
      refine ⟨hrest, ?_, ?_⟩
      · rw [List.filterMap_append]
        refine hcoScopes.remove (by simp [howner]) fun other hother _ => ?_
        obtain ⟨source, hsource, hrow⟩ := List.mem_filterMap.mp hother
        simpa [owner_of_coRow hrow] using hothers source hsource
      · rw [List.filterMap_append]
        exact hthreadScopes
  | thread entry howner hco hthread _ hdestruct =>
      rw [hdestruct]
      simp only [List.filterMap_append, List.filterMap_cons_none hco] at hcoScopes
      simp only [List.filterMap_append, List.filterMap_cons_some hthread] at hthreadScopes
      refine ⟨hrest, ?_, ?_⟩
      · rw [List.filterMap_append]
        exact hcoScopes
      · rw [List.filterMap_append]
        refine hthreadScopes.remove (by simp [howner]) fun other hother _ => ?_
        obtain ⟨source, hsource, hrow⟩ := List.mem_filterMap.mp hother
        simpa [owner_of_threadRow hrow] using hothers source hsource

theorem reachable_registered {world : ScopeWorld Context}
    (hreach : (scopeMachine Context).Reachable world) : Registered world := by
  refine Machine.ReachableWhere.induct ?_ ?_ hreach
  · rintro world rfl
    exact ⟨List.nodup_nil, .empty, .empty⟩
  · intro world label next _ hreg _ hnext
    cases label with
    | construct address ctx current =>
        simp only [scopeMachine] at hnext
        split at hnext
        case isTrue => cases hnext
        case isFalse hfree =>
          cases hnext
          refine hreg.construct fun hmem => hfree ?_
          obtain ⟨row, hrow, heq⟩ := List.mem_map.mp hmem
          exact List.any_eq_true.mpr ⟨row, hrow, beq_iff_eq.mpr heq⟩
    | destruct address =>
        simp only [scopeMachine] at hnext
        split at hnext
        case h_1 => cases hnext
        case h_2 row hfind =>
          cases hnext
          obtain ⟨hrow, before, after, hliving, hbefore⟩ :=
            List.find?_eq_some_iff_append.mp hfind
          have hbefore : ∀ other ∈ before, ¬(other.address == address) = true := by
            intro other hother
            simpa using hbefore other hother
          have haddress : row.address = address := beq_iff_eq.mp hrow
          rw [hliving, List.eraseP_append_right _ hbefore,
            List.eraseP_cons_of_pos (p := fun row : LivingScope Context =>
              row.address == address) hrow, ← haddress]
          obtain ⟨tables, living⟩ := world
          cases hliving
          exact hreg.destruct

theorem LivingScope.recorded (row : LivingScope Context) (hctx : row.scope.ctx ≠ none) :
    row.scope.coId = row.creator.coroutineId ∧ row.scope.threadId = row.creator.threadId := by
  rw [row.made]
  cases hrow : row.scope.ctx with
  | none => exact absurd hrow hctx
  | some ctx => exact ⟨rfl, rfl⟩

theorem coRow_context (row : LivingScope Context) {current : Execution}
    (hinside : current.coroutineId ≠ 0) :
    ((row.coRow.bind fun found =>
        if found.1 = current.coroutineId then some found.2 else none).map ScopeEntry.ctx) =
      if row.creator.Same current then row.scope.ctx else none := by
  cases hctx : row.scope.ctx with
  | none => simp [LivingScope.coRow, hctx]
  | some ctx =>
      obtain ⟨hco, -⟩ := row.recorded (by rw [hctx]; exact Option.some_ne_none ctx)
      have hsame : row.creator.Same current ↔ row.scope.coId = current.coroutineId := by
        rw [hco]
        exact ⟨And.left, fun heq => ⟨heq, fun hzero => absurd (heq ▸ hzero) hinside⟩⟩
      by_cases hkey : row.scope.coId = current.coroutineId
      · have hbound : row.scope.coBound = true := by
          rw [row.scope.bound, hkey]
          exact bne_iff_ne.mpr hinside
        simp [LivingScope.coRow, hctx, hbound, hkey, hsame]
      · rw [if_neg (mt hsame.mp hkey)]
        unfold LivingScope.coRow
        split
        · simp [hctx, hkey]
        · rfl

theorem threadRow_context (row : LivingScope Context) {current : Execution}
    (houtside : current.coroutineId = 0) :
    ((row.threadRow.bind fun found =>
        if found.1 = current.threadId then some found.2 else none).map ScopeEntry.ctx) =
      if row.creator.Same current then row.scope.ctx else none := by
  cases hctx : row.scope.ctx with
  | none => simp [LivingScope.threadRow, hctx]
  | some ctx =>
      obtain ⟨hco, hthread⟩ := row.recorded (by rw [hctx]; exact Option.some_ne_none ctx)
      have hsame : row.creator.Same current ↔
          row.scope.coId = 0 ∧ row.scope.threadId = current.threadId := by
        rw [hco, hthread]
        constructor
        · rintro ⟨heq, hplain⟩
          rw [houtside] at heq
          exact ⟨heq, hplain heq⟩
        · rintro ⟨hzero, heq⟩
          exact ⟨hzero.trans houtside.symm, fun _ => heq⟩
      by_cases hzero : row.scope.coId = 0
      · have hbound : row.scope.coBound = false := by
          rw [row.scope.bound, hzero]
          rfl
        by_cases hkey : row.scope.threadId = current.threadId
        · simp [LivingScope.threadRow, hctx, hbound, hkey, hsame, hzero]
        · simp [LivingScope.threadRow, hctx, hbound, hkey, hsame]
      · have hbound : row.scope.coBound = true := by
          rw [row.scope.bound]
          exact bne_iff_ne.mpr hzero
        simp [LivingScope.threadRow, hbound, hsame, hzero]

theorem top_context {Key : Type} [DecidableEq Key]
    {table : KeyedStacks Key (ScopeEntry Context)} {living : List (LivingScope Context)}
    {rowOf : LivingScope Context → Option (Key × ScopeEntry Context)} {key : Key}
    {current : Execution} (hholds : table.Holds (living.filterMap rowOf))
    (hrows : ∀ row, ((rowOf row).bind fun found =>
        if found.1 = key then some found.2 else none).map ScopeEntry.ctx =
      if row.creator.Same current then row.scope.ctx else none) :
    (table.top key).map ScopeEntry.ctx =
      (living.filterMap fun row =>
        if row.creator.Same current then row.scope.ctx else none).getLast? := by
  rw [hholds.top, KeyedStacks.entriesOf, List.filterMap_filterMap, ← List.getLast?_map,
    List.map_filterMap]
  congr 2
  funext row
  exact hrows row

theorem Registered.current [Infra] {world : ScopeWorld Context} (hreg : Registered world)
    (current : Execution) :
    currentRequestContext world.tables current =
      match world.latest current with
      | some ctx => .ok ctx
      | none =>
          .error (makeError .invalidContext
            "no managed request context bound to current coroutine/thread") := by
  unfold currentRequestContext ScopeWorld.latest
  by_cases hinside : current.coroutineId = 0
  · rw [← top_context hreg.threadScopes fun row => threadRow_context row hinside, hinside]
    cases world.tables.threadScopes.top current.threadId with
    | none => rfl
    | some entry => rfl
  · rw [← top_context hreg.coScopes fun row => coRow_context row hinside,
      bne_iff_ne.mpr hinside]
    cases world.tables.coScopes.top current.coroutineId with
    | none => rfl
    | some entry => rfl

end

end BbtFramework.Inbound
