import BbtFramework.Host.EngineHost

/-!
# What the methods of a host do to its threads

A thread that is still joinable must not be started over or destroyed, its engine must not
be let go while it runs, and a join comes back only when its engine was asked to close.
Each method keeps to that, from fields that say how the threads stand to fields that do.
-/

namespace BbtFramework.Host

open BbtFramework.Library

/-- What has become of the engines and of their threads: whether the host holds an engine,
whether its thread is started and not joined, and whether the engine was asked to close. -/
structure EngineView where
  owned : EngineSlot → Bool
  live : EngineSlot → Bool
  asked : EngineSlot → Bool
  closed : Bool
  orderly : Bool

namespace EngineView

def initial : EngineView where
  owned := fun _ => false
  live := fun _ => false
  asked := fun _ => false
  closed := false
  orderly := true

def setOwned (slot : EngineSlot) (owned : Bool) (view : EngineView) : EngineView :=
  { view with owned := Function.update view.owned slot owned }

def setLive (slot : EngineSlot) (live : Bool) (view : EngineView) : EngineView :=
  { view with live := Function.update view.live slot live }

def setAsked (slot : EngineSlot) (asked : Bool) (view : EngineView) : EngineView :=
  { view with asked := Function.update view.asked slot asked }

end EngineView

def CallEnd.hasReturned {Value : Type} : CallEnd Value → Bool
  | .returned _ => true
  | _ => false

/-- The calls of `Run` up to `Create`. -/
def HostCall.beforeStart : HostCall → Bool
  | .startScheduler | .onSchedulerStarted | .create => true
  | _ => false

/-- An exception inside `_Close`, and a close before `Create`. -/
def NetCall.disturbs : (act : NetCall) → act.Answer → Bool
  | .publishReason, ended => !CallEnd.hasReturned ended
  | .copyReason, ended => !CallEnd.hasReturned ended
  | .closePart _, ended => !CallEnd.hasReturned ended
  | .requestClose _, ended => !CallEnd.hasReturned ended
  | .finished _, ended => !CallEnd.hasReturned ended
  | .makeCloseError, ended => !CallEnd.hasReturned ended
  | .othersClose before, heard => before.any HostCall.beforeStart && heard.isSome
  | _, _ => false

/-- No engine is let go under its thread, no thread is started over another or without an
engine, what is joined is joinable, and nothing is destroyed under a thread. -/
def ThreadSafe (act : NetCall) (view : EngineView) : Prop :=
  match act with
  | .keepEngine slot | .resetEngine slot => view.live slot = false
  | .startThread slot => view.live slot = false ∧ view.owned slot = true
  | .join slot => view.live slot = true
  | .destroyMembers => ∀ slot, view.live slot = false
  | _ => True

def AskedFirst (act : NetCall) (view : EngineView) : Prop :=
  match act with
  | .startThread _ => view.closed = false
  | .join slot => view.asked slot = true
  | _ => True

def engineAfter : (act : NetCall) → act.Answer → EngineView → EngineView
  | .closeOnce, _, view => { view with closed := true }
  | .keepEngine slot, _, view => (view.setOwned slot true).setAsked slot false
  | .resetEngine slot, _, view => view.setOwned slot false
  | .startThread slot, .returned (), view => view.setLive slot true
  | .join slot, _, view => view.setLive slot false
  | .requestClose slot, .returned (), view => view.setAsked slot true
  | act, answer, view => if act.disturbs answer then { view with orderly := false } else view

def engines : Discipline NetCall NetCall.Answer EngineView where
  allows := fun act view => ThreadSafe act view ∧ (view.orderly = true → AskedFirst act view)
  possible := fun _ _ => True
  after := engineAfter

namespace InfraHttpHost

/-- The fields say how the threads and their engines stand. -/
structure Tracks (view : EngineView) (host : InfraHttpHost) : Prop where
  live : view.live = host.joinable
  owned : view.owned = host.owner
  closed : view.closed = host.closeOnce
  held : ∀ slot, host.joinable slot = true → host.owner slot = true

section

variable {view : EngineView} {host : InfraHttpHost} {Value Other : Type}
variable {post : Value → EngineView → InfraHttpHost → Prop}
variable {left : EngineView → InfraHttpHost → Prop}

theorem passed_meets {ended : CallEnd Value}
    (hpost : ∀ value, ended = .returned value → post value view host)
    (hleft : ended.hasReturned = false → left view host) :
    Method.Meets engines (passed ended) view host post left := by
  cases ended with
  | returned value => exact .pure (hpost value rfl)
  | threw what => exact .leave (hleft rfl)
  | threwOther => exact .leave (hleft rfl)

theorem checked_meets {ended : CallEnd (Except Error Value)}
    (hpost : ∀ value, ended = .returned (.ok value) → post value view host)
    (hleft : left view host) :
    Method.Meets engines (checked ended) view host post left := by
  refine .bind (passed_meets ?_ (fun _ => hleft))
  rintro (error | value) hended
  · exact .leave hleft
  · exact .pure (hpost value hended)

/-- A call that changes nothing of the threads, and then the rest. -/
theorem call_meets {act : NetCall} {next : act.Answer → HostMethod Value}
    (hallows : engines.allows act view)
    (hafter : ∀ answer, engineAfter act answer view = view)
    (hnext : ∀ answer, Method.Meets engines (next answer) view host post left) :
    Method.Meets engines (call act >>= next) view host post left := by
  refine .step hallows ?_
  intro answer _
  exact Eq.mpr (congrArg (fun last => Method.Meets engines (next answer) last host post left)
    (hafter answer)) (hnext answer)

end

/-! ## Creating -/

section

variable {view : EngineView} {host : InfraHttpHost}

/-- No thread has been started, and what was closed was closed too early. -/
structure Unstarted (view : EngineView) (host : InfraHttpHost) : Prop
    extends Tracks view host where
  egress : host.created = true → host.owner .egress = true
  idle : ∀ slot, host.joinable slot = false
  early : host.closeOnce = true → view.orderly = false

theorem Unstarted.setPart {part : NetPart} (hhost : Unstarted view host) :
    Unstarted view (host.setPart part) :=
  ⟨⟨hhost.live, hhost.owned, hhost.closed, hhost.held⟩, hhost.egress, hhost.idle, hhost.early⟩

theorem Unstarted.setOwner {slot : EngineSlot} (hhost : Unstarted view host) :
    Unstarted ((view.setOwned slot true).setAsked slot false) (host.setOwner slot true) where
  live := hhost.live
  owned := congrArg (fun owned : EngineSlot → Bool => Function.update owned slot true)
    hhost.owned
  closed := hhost.closed
  held := fun other hlive => absurd hlive (by simp [InfraHttpHost.setOwner, hhost.idle other])
  egress := by
    intro hcreated
    by_cases hslot : slot = .egress
    · simp [InfraHttpHost.setOwner, hslot]
    · simpa [InfraHttpHost.setOwner, Function.update_of_ne (Ne.symm hslot)] using
        hhost.egress hcreated
  idle := hhost.idle
  early := hhost.early

/-- A part that is made and kept. -/
theorem keepPart_meets {part : NetPart} (hhost : Unstarted view host) :
    Method.Meets engines
      (do
        call (.createPart part) >>= checked
        Method.modify (InfraHttpHost.setPart part)) view host (fun _ => Unstarted) Unstarted := by
  refine .bind (call_meets ⟨trivial, fun _ => trivial⟩ (fun _ => rfl) ?_)
  intro _
  refine checked_meets ?_ hhost
  intro _ _
  exact hhost.setPart

/-- An engine is kept while its thread is not running. -/
theorem keepEngine_meets {slot : EngineSlot} {next : Unit → HostMethod Unit}
    {post : Unit → EngineView → InfraHttpHost → Prop} {left : EngineView → InfraHttpHost → Prop}
    (hhost : Unstarted view host)
    (hnext : Method.Meets engines (next ()) ((view.setOwned slot true).setAsked slot false)
      host post left) :
    Method.Meets engines (call (.keepEngine slot) >>= next) view host post left := by
  have hidle : view.live slot = false := hhost.live ▸ hhost.idle slot
  exact .step ⟨hidle, fun _ => trivial⟩ (fun _ _ => hnext)

theorem createRpcClient_meets (hhost : Unstarted view host)
    (howner : host.owner .egress = true) :
    Method.Meets engines createRpcClient view host
      (fun _ last host => Unstarted last host ∧ host.owner .egress = true) Unstarted := by
  refine .read (.ite ?_ (fun _ => .pure ⟨hhost, howner⟩))
  intro _
  refine .bind (call_meets ⟨trivial, fun _ => trivial⟩ (fun _ => rfl) ?_)
  intro _
  refine checked_meets ?_ hhost
  intro _ _
  exact ⟨hhost.setPart, howner⟩

variable [Infra]

theorem createTransport_meets (hhost : Unstarted view host) :
    Method.Meets engines createTransport view host (fun _ => Unstarted) Unstarted := by
  refine .read (.ite (fun _ => .leave hhost) ?_)
  intro _
  exact call_meets ⟨trivial, fun _ => trivial⟩ (fun _ => rfl)
    (fun _ => checked_meets (fun _ _ => hhost) hhost)

theorem createServer_meets (hhost : Unstarted view host) :
    Method.Meets engines createServer view host (fun _ => Unstarted) Unstarted := by
  refine .read (.ite (fun _ => keepPart_meets hhost) ?_)
  intro _
  refine .ite (fun _ => .leave hhost) ?_
  intro _
  exact (createTransport_meets hhost).andThen (fun _ _ _ hhost => keepPart_meets hhost)
    (fun _ _ hhost => hhost)

theorem createIngress_meets (hhost : Unstarted view host) :
    Method.Meets engines createIngress view host (fun _ => Unstarted) Unstarted := by
  refine .read (.ite ?_ (fun _ => .pure hhost))
  intro _
  refine .bind (call_meets ⟨trivial, fun _ => trivial⟩ (fun _ => rfl) ?_)
  intro _
  refine passed_meets ?_ (fun _ => hhost)
  intro _ _
  exact (createServer_meets hhost).andThen
    (fun _ _ _ hhost => keepEngine_meets hhost hhost.setOwner) (fun _ _ hhost => hhost)

theorem create_meets (hhost : Unstarted view host) :
    Method.Meets engines create view host (fun _ => Unstarted) Unstarted := by
  refine .bind (call_meets ⟨trivial, fun _ => trivial⟩ (fun _ => rfl) ?_)
  intro _
  refine checked_meets ?_ hhost
  intro _ _
  refine .bind (call_meets ⟨trivial, fun _ => trivial⟩ (fun _ => rfl) ?_)
  intro _
  refine passed_meets ?_ (fun _ => hhost)
  intro _ _
  refine .bind (call_meets ⟨trivial, fun _ => trivial⟩ (fun _ => rfl) ?_)
  intro _
  refine checked_meets ?_ hhost
  intro _ _
  refine (createIngress_meets hhost).andThen ?_ (fun _ _ hhost => hhost)
  intro _ view host hhost
  refine keepEngine_meets hhost (.write (.write ?_))
  have howner : (setPart .httpClient (host.setOwner .egress true)).owner .egress = true := by
    simp [setPart, setOwner]
  refine (createRpcClient_meets hhost.setOwner.setPart howner).andThen ?_
    (fun _ _ hhost => hhost)
  rintro _ view host ⟨hhost, howner⟩
  exact ⟨⟨hhost.live, hhost.owned, hhost.closed, hhost.held⟩, fun _ => howner, hhost.idle,
    hhost.early⟩

end

/-! ## Starting -/

section

variable [Infra] {view : EngineView} {host : InfraHttpHost}

structure Startable (view : EngineView) (host : InfraHttpHost) : Prop
    extends Tracks view host where
  egress : host.created = true → host.owner .egress = true
  unclosed : view.orderly = true → host.closeOnce = false

omit [Infra] in
theorem Startable.setJoinable {slot : EngineSlot} (hhost : Startable view host)
    (howner : host.owner slot = true) :
    Startable (view.setLive slot true) (host.setJoinable slot true) where
  live := congrArg (fun live : EngineSlot → Bool => Function.update live slot true) hhost.live
  owned := hhost.owned
  closed := hhost.closed
  held := by
    intro other hlive
    by_cases hslot : other = slot
    · exact hslot ▸ howner
    · exact hhost.held other (by
        simpa [InfraHttpHost.setJoinable, Function.update_of_ne hslot] using hlive)
  egress := hhost.egress
  unclosed := hhost.unclosed

theorem runEngine_meets {slot : EngineSlot} (hhost : Startable view host)
    (howner : host.owner slot = true) (hidle : host.joinable slot = false) :
    Method.Meets engines (runEngine slot) view host
      (fun _ last after => Startable last after ∧
        after.joinable = Function.update host.joinable slot true) Startable := by
  refine .bind (call_meets ⟨trivial, fun _ => trivial⟩ (fun _ => rfl) ?_)
  intro _
  refine passed_meets ?_ (fun _ => hhost)
  intro _ _
  refine .write (.bind (.step ⟨⟨?_, ?_⟩, ?_⟩ ?_))
  · exact hhost.live ▸ hidle
  · exact hhost.owned ▸ howner
  · exact fun horderly => hhost.closed.trans (hhost.unclosed horderly)
  intro ended _
  have hpromised : Startable view (host.setPromised slot) :=
    ⟨⟨hhost.live, hhost.owned, hhost.closed, hhost.held⟩, hhost.egress, hhost.unclosed⟩
  cases ended with
  | threw what => exact hpromised
  | threwOther => exact hpromised
  | returned _ =>
      have hstarted := hpromised.setJoinable howner
      refine .write (call_meets ⟨trivial, fun _ => trivial⟩ (fun _ => rfl) ?_)
      intro (startup : EngineStartup)
      cases startup with
      | running => exact ⟨hstarted, rfl⟩
      | finished => exact hstarted
      | timedOut message => exact hstarted

omit [Infra] in
theorem startPart_meets {part : NetPart} (hhost : Startable view host) :
    Method.Meets engines (startPart part) view host (fun _ => Startable) Startable := by
  refine .read (.ite ?_ (fun _ => .pure hhost))
  intro _
  exact call_meets ⟨trivial, fun _ => trivial⟩ (fun _ => rfl)
    (fun _ => checked_meets (fun _ _ => hhost) hhost)

theorem startIngress_meets (hhost : Startable view host)
    (howner : host.owner .ingress = true) (hidle : host.joinable .ingress = false) :
    Method.Meets engines startIngress view host (fun _ => Startable) Startable := by
  refine .bind (call_meets ⟨trivial, fun _ => trivial⟩ (fun _ => rfl) ?_)
  intro _
  refine passed_meets ?_ (fun _ => hhost)
  intro code _
  refine .ite (fun _ => .leave hhost) ?_
  intro _
  refine (runEngine_meets hhost howner hidle).andThen ?_ (fun _ _ hhost => hhost)
  rintro _ view host ⟨hhost, -⟩
  refine .bind (call_meets ⟨trivial, fun _ => trivial⟩ (fun _ => rfl) ?_)
  intro _
  refine passed_meets ?_ (fun _ => hhost)
  rintro (⟨_ | code, _ | port⟩ : Option String × Option Nat) _
  case none.some =>
    refine (startPart_meets hhost).andThen ?_ (fun _ _ hhost => hhost)
    intro _ view host hhost
    refine (startPart_meets hhost).andThen ?_ (fun _ _ hhost => hhost)
    intro _ view host hhost
    exact ⟨⟨hhost.live, hhost.owned, hhost.closed, hhost.held⟩, hhost.egress, hhost.unclosed⟩
  case none.none => exact hhost
  case some.none => exact hhost
  case some.some => exact hhost

theorem start_meets (hhost : Startable view host) (hcreated : host.created = true)
    (hidle : ∀ slot, host.joinable slot = false) :
    Method.Meets engines start view host (fun _ => Startable) Startable := by
  refine .read (.ite (fun hnone => absurd hcreated hnone) ?_)
  intro _
  refine (runEngine_meets hhost (hhost.egress hcreated) (hidle .egress)).andThen ?_
    (fun _ _ hhost => hhost)
  rintro _ last after ⟨hafter, hjoinable⟩
  refine .read (.ite (fun _ => .pure hafter) ?_)
  intro hingress
  refine startIngress_meets hafter (Decidable.not_not.mp hingress) ?_
  · rw [hjoinable, Function.update_of_ne (by decide)]
    exact hidle .ingress

end

/-! ## Closing -/

section

variable {view middle last : EngineView} {host between after : InfraHttpHost}

/-- What each part of `_Close` keeps: it asks and joins, and lets no engine go. -/
structure Fades (view : EngineView) (host : InfraHttpHost) (last : EngineView)
    (after : InfraHttpHost) : Prop where
  tracks : Tracks last after
  closeOnce : after.closeOnce = host.closeOnce
  created : after.created = host.created
  owner : after.owner = host.owner
  joinable : ∀ slot, after.joinable slot = true → host.joinable slot = true
  asked : ∀ slot, view.asked slot = true → last.asked slot = true
  orderly : last.orderly = true → view.orderly = true

theorem Fades.refl (htracks : Tracks view host) : Fades view host view host :=
  ⟨htracks, rfl, rfl, rfl, fun _ h => h, fun _ h => h, fun h => h⟩

theorem Fades.trans (hfirst : Fades view host middle between)
    (hsecond : Fades middle between last after) : Fades view host last after where
  tracks := hsecond.tracks
  closeOnce := hsecond.closeOnce.trans hfirst.closeOnce
  created := hsecond.created.trans hfirst.created
  owner := hsecond.owner.trans hfirst.owner
  joinable := fun slot hlive => hfirst.joinable slot (hsecond.joinable slot hlive)
  asked := fun slot hasked => hsecond.asked slot (hfirst.asked slot hasked)
  orderly := fun horderly => hfirst.orderly (hsecond.orderly horderly)

/-- An exception has left a part of `_Close`. -/
theorem Fades.disturbed (htracks : Tracks view host) :
    Fades view host { view with orderly := false } host :=
  ⟨⟨htracks.live, htracks.owned, htracks.closed, htracks.held⟩, rfl, rfl, rfl,
    fun _ h => h, fun _ h => h, fun h => absurd h Bool.false_ne_true⟩

/-- A part of `_Close`; an exception that leaves it disturbs the close. -/
def Closes {Value : Type} (method : HostMethod Value) (view : EngineView)
    (host : InfraHttpHost) (post : Value → EngineView → InfraHttpHost → Prop) : Prop :=
  Method.Meets engines method view host
    (fun value last after => Fades view host last after ∧ post value last after)
    (fun last after => Fades view host last after ∧ last.orderly = false)

namespace Closes

variable {Value Other : Type} {post : Value → EngineView → InfraHttpHost → Prop}

theorem pure {value : Value} (htracks : Tracks view host) (hpost : post value view host) :
    Closes (Pure.pure value) view host post :=
  ⟨.refl htracks, hpost⟩

/-- One part and then another. -/
theorem andThen {method : HostMethod Other} {next : Other → HostMethod Value}
    {midway : Other → EngineView → InfraHttpHost → Prop}
    (hmethod : Closes method view host midway)
    (hnext : ∀ value middle between, Fades view host middle between →
      midway value middle between → Closes (next value) middle between post) :
    Closes (method >>= next) view host post := by
  refine Method.Meets.andThen hmethod ?_ (fun _ _ hended => hended)
  rintro value middle between ⟨hfades, hmidway⟩
  exact (hnext value middle between hfades hmidway).mono
    (fun _ _ _ hended => ⟨hfades.trans hended.1, hended.2⟩)
    (fun _ _ hended => ⟨hfades.trans hended.1, hended.2⟩)

theorem mono {method : HostMethod Value} {strong : Value → EngineView → InfraHttpHost → Prop}
    (hmethod : Closes method view host strong)
    (hpost : ∀ value last after, Fades view host last after → strong value last after →
      post value last after) :
    Closes method view host post :=
  Method.Meets.mono hmethod
    (fun value last after hended => ⟨hended.1, hpost value last after hended.1 hended.2⟩)
    (fun _ _ hended => hended)

theorem read {next : InfraHttpHost → HostMethod Value}
    (hnext : Closes (next host) view host post) : Closes (Method.get >>= next) view host post :=
  hnext

theorem ite {cond : Prop} [Decidable cond] {yes no : HostMethod Value}
    (hyes : cond → Closes yes view host post) (hno : ¬cond → Closes no view host post) :
    Closes (if cond then yes else no) view host post :=
  Method.Meets.ite hyes hno

/-- A call that changes nothing of the threads, and then the rest. -/
theorem call {act : NetCall} {next : act.Answer → HostMethod Value}
    (hallows : engines.allows act view)
    (hafter : ∀ answer, engineAfter act answer view = view)
    (hnext : ∀ answer, Closes (next answer) view host post) :
    Closes (InfraHttpHost.call act >>= next) view host post :=
  call_meets hallows hafter hnext

/-- A call whose exception disturbs the close, and nothing else. -/
theorem attempt {act : NetCall} {ended : act.Answer → CallEnd Value}
    (htracks : Tracks view host) (hallows : engines.allows act view)
    (hafter : ∀ answer, engineAfter act answer view =
      if (!(ended answer).hasReturned) = true then { view with orderly := false } else view) :
    Closes (InfraHttpHost.call act >>= fun answer => passed (ended answer)) view host
      (fun _ last after => last = view ∧ after = host) := by
  refine Method.Meets.step hallows ?_
  intro answer _
  rw [show engines.after act answer view = _ from hafter answer]
  cases hended : ended answer with
  | returned value => exact ⟨.refl htracks, rfl, rfl⟩
  | threw what => exact ⟨.disturbed htracks, rfl⟩
  | threwOther => exact ⟨.disturbed htracks, rfl⟩

end Closes

theorem closePart_closes {part : NetPart} (htracks : Tracks view host) :
    Closes (closePart part) view host (fun _ last after => last = view ∧ after = host) := by
  refine .read (.ite ?_ ?_)
  · intro _
    exact .attempt htracks ⟨trivial, fun _ => trivial⟩ (fun _ => rfl)
  · intro _
    exact .pure htracks ⟨rfl, rfl⟩

theorem requestClose_closes {slot : EngineSlot} (htracks : Tracks view host) :
    Closes (call (.requestClose slot) >>= passed) view host
      (fun _ last after => last = view.setAsked slot true ∧ after = host) := by
  refine Method.Meets.step ⟨trivial, fun _ => trivial⟩ ?_
  intro (ended : CallEnd Unit) _
  have hkept : ∀ other, view.asked other = true →
      (view.setAsked slot true).asked other = true := by
    intro other hasked
    by_cases hslot : other = slot
    · simp [EngineView.setAsked, hslot]
    · simpa [EngineView.setAsked, Function.update_of_ne hslot] using hasked
  cases ended with
  | returned value =>
      exact ⟨⟨⟨htracks.live, htracks.owned, htracks.closed, htracks.held⟩, rfl, rfl, rfl,
        fun _ h => h, hkept, fun h => h⟩, rfl, rfl⟩
  | threw what => exact ⟨.disturbed htracks, rfl⟩
  | threwOther => exact ⟨.disturbed htracks, rfl⟩

theorem Tracks.joined {slot : EngineSlot} (htracks : Tracks view host) :
    Tracks (view.setLive slot false) (host.setJoinable slot false) where
  live := congrArg (fun live : EngineSlot → Bool => Function.update live slot false)
    htracks.live
  owned := htracks.owned
  closed := htracks.closed
  held := by
    intro other hlive
    by_cases hslot : other = slot
    · simp [setJoinable, hslot] at hlive
    · exact htracks.held other (by
        simpa [setJoinable, Function.update_of_ne hslot] using hlive)

theorem joinThread_closes {slot : EngineSlot} (htracks : Tracks view host)
    (hlive : host.joinable slot = true) (hasked : view.asked slot = true) :
    Closes (joinThread slot) view host
      (fun _ _ after => after.joinable slot = false) := by
  have hjoinable : view.live slot = true := htracks.live ▸ hlive
  refine Method.Meets.step ⟨hjoinable, fun _ => hasked⟩ ?_
  intro _ _
  refine ⟨⟨htracks.joined, rfl, rfl, rfl, ?_, fun _ h => h, fun h => h⟩, by simp [setJoinable]⟩
  intro other hother
  by_cases hslot : other = slot
  · exact hslot ▸ hlive
  · simpa [setJoinable, Function.update_of_ne hslot] using hother

theorem awaitFinished_closes {slot : EngineSlot} (htracks : Tracks view host) :
    Closes (awaitFinished slot) view host (fun _ last after => last = view ∧ after = host) := by
  refine .read (.ite ?_ ?_)
  · intro _
    exact ⟨⟨trivial, fun _ => trivial⟩, fun _ _ => ⟨.refl htracks, rfl, rfl⟩⟩
  · intro _
    exact .pure htracks ⟨rfl, rfl⟩

section

variable [Infra]

theorem afterJoin_closes {slot : EngineSlot} (htracks : Tracks view host) :
    Closes (afterJoin slot) view host
      (fun _ last after => last = view ∧ after.joinable = host.joinable) := by
  refine .read (.ite ?_ ?_)
  · intro _
    exact .call ⟨trivial, fun _ => trivial⟩ (fun _ => rfl) (fun _ => .pure htracks ⟨rfl, rfl⟩)
  intro _
  refine Closes.andThen
    (.attempt htracks ⟨trivial, fun _ => trivial⟩ (fun _ => rfl)) ?_
  rintro (code : Option String) _ _ - ⟨rfl, rfl⟩
  refine .call ⟨trivial, fun _ => trivial⟩ (fun _ => rfl) ?_
  intro (phase : EnginePhase)
  refine .ite ?_ (fun _ => .pure htracks ⟨rfl, rfl⟩)
  intro _
  refine Closes.andThen
    (.attempt htracks ⟨trivial, fun _ => trivial⟩ (fun _ => rfl)) ?_
  rintro _ _ _ - ⟨rfl, rfl⟩
  exact ⟨⟨⟨htracks.live, htracks.owned, htracks.closed, htracks.held⟩, rfl, rfl, rfl,
    fun _ h => h, fun _ h => h, fun h => h⟩, rfl, rfl⟩

theorem joinEngine_closes {slot : EngineSlot} (htracks : Tracks view host) :
    Closes (joinEngine slot) view host (fun stopped last after =>
      (after.joinable slot = true → last.asked slot = true) ∧
        (stopped = true → after.joinable slot = false)) := by
  refine .read (.ite ?_ ?_)
  · intro howner
    have hidle : host.joinable slot = false :=
      Bool.of_not_eq_true (fun hlive => howner (htracks.held slot hlive))
    exact .pure htracks ⟨fun hlive => absurd hlive (by simp [hidle]), fun _ => hidle⟩
  intro _
  refine (requestClose_closes htracks).andThen ?_
  rintro _ middle between hfades ⟨rfl, rfl⟩
  have hasked : (view.setAsked slot true).asked slot = true := by simp [EngineView.setAsked]
  refine .ite ?_ ?_
  · intro hidle
    exact .pure hfades.tracks ⟨fun _ => hasked, fun _ => Bool.of_not_eq_true hidle⟩
  intro hlive
  refine (awaitFinished_closes hfades.tracks).andThen ?_
  rintro ready _ _ - ⟨rfl, rfl⟩
  refine .ite (fun hlate => ?_) (fun _ => ?_)
  · exact .pure hfades.tracks ⟨fun _ => hasked, fun h => absurd h Bool.false_ne_true⟩
  refine (joinThread_closes hfades.tracks (Decidable.not_not.mp hlive) hasked).andThen ?_
  intro _ joined after hjoin hidle
  refine (afterJoin_closes hjoin.tracks).mono ?_
  rintro stopped last final hlast ⟨rfl, hsame⟩
  rw [hsame]
  exact ⟨fun _ => hjoin.asked slot hasked, fun _ => hidle⟩

omit [Infra] in
/-- The owner of an engine whose thread is joined. -/
theorem resetEngine_meets {slot : EngineSlot} {stopped : Bool} {left : EngineView → InfraHttpHost → Prop}
    (htracks : Tracks view host) (hidle : stopped = true → host.joinable slot = false) :
    Method.Meets engines (resetEngine slot stopped) view host
      (fun _ last after => Tracks last after ∧ after.closeOnce = host.closeOnce ∧
        after.joinable = host.joinable ∧ last.asked = view.asked ∧
        last.orderly = view.orderly) left := by
  refine .ite ?_ (fun _ => .pure ⟨htracks, rfl, rfl, rfl, rfl⟩)
  intro hstopped
  have hjoined : view.live slot = false := htracks.live ▸ hidle hstopped
  refine .step ⟨hjoined, fun _ => trivial⟩ ?_
  intro _ _
  refine ⟨⟨htracks.live, ?_, htracks.closed, ?_⟩, rfl, rfl, rfl, rfl⟩
  · exact congrArg (fun owned : EngineSlot → Bool => Function.update owned slot false)
      htracks.owned
  · intro other hlive
    by_cases hslot : other = slot
    · exact absurd hlive (by simp [setOwner, hslot, hidle hstopped])
    · simpa [setOwner, Function.update_of_ne hslot] using htracks.held other hlive

/-- What a close leaves behind. -/
structure Shut (view : EngineView) (host : InfraHttpHost) (last : EngineView)
    (after : InfraHttpHost) : Prop where
  tracks : Tracks last after
  closeOnce : after.closeOnce = true
  egress : after.created = true → after.owner .egress = true
  joinable : ∀ slot, after.joinable slot = true → host.joinable slot = true
  orderly : last.orderly = true → view.orderly = true
  asked : last.orderly = true →
    after.created = false ∧ ∀ slot, after.joinable slot = true → last.asked slot = true

/-- What a close has told, when nothing was thrown. -/
structure Told (stopped : Bool × Bool) (last : EngineView) (after : InfraHttpHost) : Prop where
  asked : ∀ slot, after.joinable slot = true → last.asked slot = true
  inbound : stopped.1 = true → after.joinable .ingress = false
  outbound : stopped.2 = true → after.joinable .egress = false

omit [Infra] in
theorem noteReason_closes (reason : Error) (htracks : Tracks view host) :
    Closes (Method.modify
        (fun host => { host with closeReason := host.closeReason <|> some reason }))
      view host (fun _ _ _ => True) :=
  ⟨⟨⟨htracks.live, htracks.owned, htracks.closed, htracks.held⟩, rfl, rfl, rfl,
    fun _ h => h, fun _ h => h, fun h => h⟩, trivial⟩

theorem closeAll_closes (reason : Error) (htracks : Tracks view host) :
    Closes (closeAll reason) view host Told := by
  refine Closes.andThen (.attempt htracks ⟨trivial, fun _ => trivial⟩ (fun _ => rfl)) ?_
  rintro _ _ _ - ⟨rfl, rfl⟩
  refine Closes.andThen (.attempt htracks ⟨trivial, fun _ => trivial⟩ (fun _ => rfl)) ?_
  rintro _ _ _ - ⟨rfl, rfl⟩
  refine (noteReason_closes reason htracks).andThen ?_
  intro _ view host hnoted _
  refine .call ⟨trivial, fun _ => trivial⟩ (fun _ => rfl) ?_
  intro _
  refine (closePart_closes hnoted.tracks).andThen ?_
  rintro _ _ _ - ⟨rfl, rfl⟩
  refine (closePart_closes hnoted.tracks).andThen ?_
  rintro _ _ _ - ⟨rfl, rfl⟩
  refine (closePart_closes hnoted.tracks).andThen ?_
  rintro _ _ _ - ⟨rfl, rfl⟩
  refine (closePart_closes hnoted.tracks).andThen ?_
  rintro _ _ _ - ⟨rfl, rfl⟩
  refine (joinEngine_closes hnoted.tracks).andThen ?_
  rintro inbound middle between hinbound ⟨hasked, hidle⟩
  refine (joinEngine_closes hinbound.tracks).andThen ?_
  rintro outbound last after houtbound ⟨hasked', hidle'⟩
  refine .pure houtbound.tracks ⟨?_, ?_, hidle'⟩
  · intro slot hlive
    cases slot with
    | ingress => exact houtbound.asked .ingress (hasked (houtbound.joinable .ingress hlive))
    | egress => exact hasked' hlive
  · intro hstopped
    exact Bool.of_not_eq_true
      (fun hlive => absurd (houtbound.joinable .ingress hlive) (by simp [hidle hstopped]))

omit [Infra] in
theorem releaseAll_meets {stopped : Bool × Bool} {left : EngineView → InfraHttpHost → Prop}
    (htracks : Tracks view host) (honce : host.closeOnce = true) (htold : Told stopped view host) :
    Method.Meets engines (releaseAll stopped.1 stopped.2) view host
      (fun _ last after => Tracks last after ∧ after.closeOnce = true ∧ after.created = false ∧
        after.joinable = host.joinable ∧ last.asked = view.asked ∧
        last.orderly = view.orderly) left := by
  have hparts : Tracks view { host with parts := fun _ => false } :=
    ⟨htracks.live, htracks.owned, htracks.closed, htracks.held⟩
  refine .write ((resetEngine_meets hparts htold.inbound).andThen ?_ (fun _ _ h => h))
  rintro _ middle between ⟨hbetween, honce', hjoinable, hasked, horderly⟩
  have hidle : stopped.2 = true → between.joinable .egress = false := by
    rw [hjoinable]
    exact htold.outbound
  refine (resetEngine_meets hbetween hidle).andThen ?_ (fun _ _ h => h)
  rintro _ last after ⟨hafter, honce'', hjoinable', hasked', horderly'⟩
  exact ⟨⟨hafter.live, hafter.owned, hafter.closed, hafter.held⟩,
    (honce''.trans honce').trans honce, rfl, hjoinable'.trans hjoinable,
    hasked'.trans hasked, horderly'.trans horderly⟩

theorem tryClose_meets (reason : Error) (htracks : Tracks view host)
    (honce : host.closeOnce = true) (hegress : host.created = true → host.owner .egress = true) :
    Method.Meets engines (tryClose reason) view host (fun _ => Shut view host)
      (Shut view host) := by
  have hleft : ∀ last after, Fades view host last after ∧ last.orderly = false →
      Shut view host last after := by
    rintro last after ⟨hfades, hdisturbed⟩
    refine ⟨hfades.tracks, hfades.closeOnce.trans honce, ?_, hfades.joinable, hfades.orderly,
      fun horderly => absurd horderly (by simp [hdisturbed])⟩
    rw [hfades.created, hfades.owner]
    exact hegress
  refine Method.Meets.andThen (closeAll_closes reason htracks) ?_ hleft
  rintro stopped middle between ⟨hfades, htold⟩
  refine (releaseAll_meets hfades.tracks (hfades.closeOnce.trans honce) htold).mono ?_
    (fun _ _ h => h)
  rintro _ last after ⟨hafter, hclosed, hcreated, hjoinable, hasked, horderly⟩
  refine ⟨hafter, hclosed, fun h => absurd h (by simp [hcreated]), ?_, ?_, ?_⟩
  · rw [hjoinable]
    exact hfades.joinable
  · rw [horderly]
    exact hfades.orderly
  · intro _
    rw [hjoinable, hasked]
    exact ⟨hcreated, htold.asked⟩

def AllAsked (view : EngineView) (host : InfraHttpHost) : Prop :=
  view.orderly = true → host.closeOnce = true →
    host.created = false ∧ ∀ slot, host.joinable slot = true → view.asked slot = true

theorem close_follows (reason : Error) (htracks : Tracks view host)
    (hegress : host.created = true → host.owner .egress = true) (hasked : AllAsked view host) :
    Program.Follows engines (close reason host) view
      (fun after last => Shut view host last after) := by
  refine .step ⟨trivial, fun _ => trivial⟩ ?_
  intro _ _
  refine .ite ?_ ?_
  · intro honce
    exact .pure ⟨⟨htracks.live, htracks.owned, honce.symm, htracks.held⟩, honce, hegress,
      fun _ h => h, fun h => h, fun horderly => hasked horderly honce⟩
  intro _
  have hclosing : Tracks { view with closed := true } { host with closeOnce := true } :=
    ⟨htracks.live, htracks.owned, rfl, htracks.held⟩
  refine Program.Follows.andThen (tryClose_meets reason hclosing rfl hegress) ?_
  rintro ⟨_ | _, after⟩ last hshut
  · exact ⟨hshut.tracks, hshut.closeOnce, hshut.egress, hshut.joinable, hshut.orderly,
      hshut.asked⟩
  · exact ⟨hshut.tracks, hshut.closeOnce, hshut.egress, hshut.joinable, hshut.orderly,
      hshut.asked⟩

end

end

end InfraHttpHost

end BbtFramework.Host
