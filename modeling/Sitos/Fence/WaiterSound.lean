import Sitos.Fence.Waiter

/-!
# What a wait may return

A waiter is reserved by one completion at a time, and nothing but its holder moves the result of a
reserved waiter before it is terminal.  A terminal waiter keeps its result.  From this: what a wait
returns is final, and a success among it was offered under the token of the handle and validated
on the generation that the publisher is bound to.
-/

namespace Sitos.Waiter

open Sitos.AckResult
open Sitos.Bytes
open Sitos.Machine
open Sitos.Publisher
open Sitos.Tasks
open Sitos.Token

/-! ## What a caller has in its hands -/

def Resume.lane : Resume → Bool
  | .wait _ => false
  | .leave | .close | .stale _ => true

def Resume.awaits : Resume → Option TimedHandle
  | .wait handle => some handle
  | .leave | .close | .stale _ => none

def Resume.names : Resume → List FenceHandle
  | .stale handle | .wait handle => [handle.toFenceHandle]
  | .leave | .close => []

def Origin.awaits : Origin → Option TimedHandle
  | .complete => none
  | .poll handle _ => some handle

def Marked.awaits : Marked → Option TimedHandle
  | .complete => none
  | .wait handle | .poll handle _ _ => some handle

namespace Task

/-- Whether the caller holds the lane mutex. -/
def lane : Task → Bool
  | submitPut | submitCheck _ | beginPending _ | register _ | putMarker _ _ | beginCheck _ => true
  | disconnect resume | cancel resume | cancelled _ resume => resume.lane
  | _ => false

/-- The handle that the caller waits for. -/
def awaits : Task → Option TimedHandle
  | disconnect resume | cancel resume | cancelled _ resume => resume.awaits
  | mark marked | stop marked => marked.awaits
  | sample _ _ origin | reserve _ _ _ origin | validate _ _ _ origin | commit _ _ _ _ origin =>
      origin.awaits
  | wait handle | waitAdmission handle | waitRefused handle | waitSample handle
  | waitTarget handle | blocked handle | poll handle | pollClock handle | query handle _ _
  | queried handle _ _ | pollPause handle | settle handle _ | resetPending handle _
  | waited handle _ => some handle
  | _ => none

/-- The handles that the caller carries. -/
def names : Task → List FenceHandle
  | putMarker handle _ => [handle]
  | beginCheck handle | stale handle | began handle => [handle.toFenceHandle]
  | disconnect resume | cancel resume => resume.names
  | cancelled handle resume => handle :: resume.names
  | sample handle _ _ | reserve handle _ _ _ | validate handle _ _ _ | commit handle _ _ _ _
  | unregister handle _ => [handle]
  | task => (task.awaits.map TimedHandle.toFenceHandle).toList

/-- The waiter that the caller has reserved, the result it was offered and whether it has seen a
mismatch. -/
def holds : Task → Option (FenceHandle × AckResultV1 × Bool)
  | validate handle result mismatch _ | commit handle result mismatch _ _ =>
      some (handle, result, mismatch)
  | _ => none

def registers : Task → Bool
  | register _ => true
  | _ => false

end Task

section Facts

variable (binding : FencePublisherBinding) (shared : Shared)

def Issued (handle : FenceHandle) : Prop := shared.issued[handle.waiter]? = some handle

/-- Only a cache completes, and only a buffer polls. -/
def OriginAt (handle : FenceHandle) : Origin → Prop
  | .complete => binding.target = .cache
  | .poll waited _ => binding.target = .buffer ∧ waited.toFenceHandle = handle

def MarkedAt : Marked → Prop
  | .wait _ | .complete => True
  | .poll handle _ _ =>
      binding.target = .buffer ∧ (shared.waiters handle.waiter).terminal = true

/-- What a caller knows at the point where it stands, whatever the others do. -/
def Knows : Task → Prop
  | .complete token result => binding.target = .cache ∧ (token, result) ∈ shared.offered
  | .sample handle result origin | .reserve handle result _ origin
  | .validate handle result _ origin =>
      (handle.token, result) ∈ shared.offered ∧ OriginAt binding handle origin
  | .commit handle result mismatch sampled origin =>
      (handle.token, result) ∈ shared.offered ∧ OriginAt binding handle origin ∧
        (mismatch = false → sampled = some binding.transportGeneration)
  | .unregister handle _ => (shared.waiters handle.waiter).terminal = true
  | .mark marked | .stop marked => MarkedAt binding shared marked
  | .poll _ | .pollClock _ | .pollPause _ => binding.target = .buffer
  | .query handle observed _ | .queried handle observed _ =>
      binding.target = .buffer ∧
        (observed.isSome = true → (shared.waiters handle.waiter).terminal = true)
  | .settle handle (.ok _) => (shared.waiters handle.waiter).terminal = true
  | .resetPending handle (.ok result) | .waited handle (.ok result) =>
      terminalResultBefore (shared.waiters handle.waiter) handle.deadline = some result
  | _ => True

structure At (task : Task) : Prop where
  issued : ∀ handle ∈ task.names, Issued shared handle
  lane : task.lane = true → shared.lane = true
  vacant : task.registers = true → shared.pending = none
  held : ∀ handle result mismatch, task.holds = some (handle, result, mismatch) →
    (shared.waiters handle.waiter).reserved = true ∧
      (mismatch = false → (shared.waiters handle.waiter).terminal = false →
        (shared.waiters handle.waiter).result = some result)
  awaited : ∀ handle, task.awaits = some handle → handle.waiter ∈ shared.waited
  unreserved : binding.target = .buffer → ∀ handle, task.awaits = some handle →
    task.holds = none → (shared.waiters handle.waiter).reserved = false
  knows : Knows binding shared task

/-- A result is the publisher's own, or it was offered under the waiter's token and validated on
the bound generation. -/
def Backed (waiter : ℕ) (result : AckResultV1) : Prop :=
  ∃ handle, shared.issued[waiter]? = some handle ∧
    (result = disconnectedResult binding handle.throughSequence ∨
      ((handle.token, result) ∈ shared.offered ∧
        (shared.waiters waiter).finalSample = some binding.transportGeneration))

/-- From its registration until its waiter is terminal, its wait has returned or a cancellation has
taken it, a Fence is unfinished. -/
def Unfinished (waiter : ℕ) : Prop :=
  waiter < shared.issued.length ∧ (shared.waiters waiter).terminal = false ∧
    waiter ∉ shared.returned ∧ waiter ∉ shared.taken

structure Holds : Prop where
  numbered : ∀ waiter (handle : FenceHandle), shared.issued[waiter]? = some handle → handle.waiter = waiter
  tokens : (shared.issued.map FenceHandle.token).Nodup
  unmade : ∀ waiter, shared.issued.length ≤ waiter → shared.waiters waiter = .fresh
  pending : ∀ handle, shared.pending = some handle → Issued shared handle
  handed : ∀ handle ∈ shared.handed, Issued shared handle.toFenceHandle
  final : ∀ waiter, (shared.waiters waiter).completedAt.isSome = true →
    (shared.waiters waiter).terminal = true ∧
      ∃ result, (shared.waiters waiter).result = some result ∧
        Backed binding shared waiter result
  alone : ∀ waiter, Unfinished shared waiter →
    ∃ handle, shared.pending = some handle ∧ handle.waiter = waiter
  unwaited : binding.target = .buffer → ∀ waiter ∉ shared.waited,
    (shared.waiters waiter).reserved = false

end Facts

/-- What two callers never have at once. -/
structure Compatible (first second : Task) : Prop where
  lane : ¬(first.lane = true ∧ second.lane = true)
  holds : ∀ handle other, first.holds = some handle → second.holds = some other →
    handle.1.waiter ≠ other.1.waiter
  awaits : ∀ handle other, first.awaits = some handle → second.awaits = some other →
    handle.waiter ≠ other.waiter

theorem Compatible.symm {first second : Task} (hcompatible : Compatible first second) :
    Compatible second first where
  lane hboth := hcompatible.lane ⟨hboth.2, hboth.1⟩
  holds handle other hfirst hsecond := (hcompatible.holds other handle hsecond hfirst).symm
  awaits handle other hfirst hsecond := (hcompatible.awaits other handle hsecond hfirst).symm

/-! ## What a block does to the others -/

section Blocks

variable {binding : FencePublisherBinding} {shared next : Shared} {task task' : Task}

/-- Everything of the waiter but the reservation stays. -/
def Frozen (shared next : Shared) (waiter : ℕ) : Prop :=
  next.waiters waiter =
    { shared.waiters waiter with reserved := (next.waiters waiter).reserved }

variable (binding shared next task) in
structure Effect : Prop where
  issued : shared.issued <+: next.issued
  offered : shared.offered ⊆ next.offered
  waited : shared.waited ⊆ next.waited
  frozen : ∀ waiter, (shared.waiters waiter).terminal = true → Frozen shared next waiter
  lane : shared.lane = true → next.lane = true ∨ task.lane = true
  vacant : shared.pending = none → next.pending = none ∨ task.lane = true
  single : ∀ handle other, shared.pending = some handle → next.pending = some other →
    other = handle
  kept : ∀ waiter, (shared.waiters waiter).reserved = true →
    (∀ held, task.holds = some held → held.1.waiter ≠ waiter) →
    (next.waiters waiter).reserved = true ∧ ((next.waiters waiter).terminal = false →
      (shared.waiters waiter).terminal = false ∧
        (next.waiters waiter).result = (shared.waiters waiter).result)
  clear : binding.target = .buffer → ∀ waiter, (shared.waiters waiter).reserved = false →
    (∀ handle, task.awaits = some handle → handle.waiter ≠ waiter) →
    (next.waiters waiter).reserved = false

variable (shared task task') in
/-- What the caller has after the block and had not before was free. -/
structure Claims : Prop where
  lane : task'.lane = true → task.lane = true ∨ shared.lane = false
  holds : ∀ held, task'.holds = some held →
    (∃ before, task.holds = some before ∧ before.1 = held.1) ∨
      (shared.waiters held.1.waiter).reserved = false
  awaits : ∀ handle, task'.awaits = some handle →
    task.awaits = some handle ∨ handle.waiter ∉ shared.waited

theorem Issued.mono {handle : FenceHandle} (hissued : Issued shared handle)
    (hgrows : shared.issued <+: next.issued) : Issued next handle := by
  obtain ⟨more, hmore⟩ := hgrows
  have hlt : handle.waiter < shared.issued.length := (List.getElem?_eq_some_iff.mp hissued).1
  rw [Issued, ← hmore, List.getElem?_append_left hlt]
  exact hissued

theorem Frozen.terminal {waiter : ℕ} (hfrozen : Frozen shared next waiter)
    (hterminal : (shared.waiters waiter).terminal = true) :
    (next.waiters waiter).terminal = true := by
  rw [hfrozen]
  exact hterminal

theorem Frozen.terminalResultBefore {waiter : ℕ} (hfrozen : Frozen shared next waiter)
    (deadline : ℕ) :
    terminalResultBefore (next.waiters waiter) deadline =
      terminalResultBefore (shared.waiters waiter) deadline := by
  rw [hfrozen]
  rfl

theorem terminal_of_terminalResultBefore {state : FenceWaiterState} {deadline : ℕ}
    {result : AckResultV1} (hresult : terminalResultBefore state deadline = some result) :
    state.terminal = true := by
  unfold terminalResultBefore at hresult
  split_ifs at hresult with hbefore
  exact hbefore.1

theorem MarkedAt.mono {marked : Marked} (hat : MarkedAt binding shared marked)
    (hfrozen : ∀ waiter, (shared.waiters waiter).terminal = true → Frozen shared next waiter) :
    MarkedAt binding next marked := by
  cases marked with
  | wait handle => exact trivial
  | complete => exact trivial
  | poll handle result malformed => exact ⟨hat.1, (hfrozen _ hat.2).terminal hat.2⟩

theorem Knows.mono (hknows : Knows binding shared task)
    (hoffered : shared.offered ⊆ next.offered)
    (hfrozen : ∀ waiter, (shared.waiters waiter).terminal = true → Frozen shared next waiter) :
    Knows binding next task := by
  have hreturn : ∀ (handle : TimedHandle) result,
      terminalResultBefore (shared.waiters handle.waiter) handle.deadline = some result →
      terminalResultBefore (next.waiters handle.waiter) handle.deadline = some result := by
    intro handle result hresult
    have hterminal := terminal_of_terminalResultBefore hresult
    rw [(hfrozen _ hterminal).terminalResultBefore]
    exact hresult
  have hstay : ∀ {waiter}, (shared.waiters waiter).terminal = true →
      (next.waiters waiter).terminal = true := fun hterminal =>
    (hfrozen _ hterminal).terminal hterminal
  cases task with
  | complete token result => exact ⟨hknows.1, hoffered hknows.2⟩
  | sample handle result origin => exact ⟨hoffered hknows.1, hknows.2⟩
  | reserve handle result mismatch origin => exact ⟨hoffered hknows.1, hknows.2⟩
  | validate handle result mismatch origin => exact ⟨hoffered hknows.1, hknows.2⟩
  | commit handle result mismatch sampled origin => exact ⟨hoffered hknows.1, hknows.2⟩
  | unregister handle mismatch => exact hstay hknows
  | mark marked => exact MarkedAt.mono hknows hfrozen
  | stop marked => exact MarkedAt.mono hknows hfrozen
  | poll handle => exact hknows
  | pollClock handle => exact hknows
  | pollPause handle => exact hknows
  | query handle observed malformed => exact ⟨hknows.1, fun hsome => hstay (hknows.2 hsome)⟩
  | queried handle observed malformed => exact ⟨hknows.1, fun hsome => hstay (hknows.2 hsome)⟩
  | settle handle outcome =>
      cases outcome with
      | error status => exact trivial
      | ok result => exact hstay hknows
  | resetPending handle outcome =>
      cases outcome with
      | error status => exact trivial
      | ok result => exact hreturn handle result hknows
  | waited handle outcome =>
      cases outcome with
      | error status => exact trivial
      | ok result => exact hreturn handle result hknows
  | _ => exact trivial

theorem lane_of_registers (hregisters : task.registers = true) : task.lane = true := by
  cases task with
  | register budget => rfl
  | _ => cases hregisters

/-- A block that only moves what its caller has disturbs no other. -/
theorem undisturbed (heffect : Effect binding shared next task)
    (hclaims : Claims shared task task') :
    Undisturbed (At binding) Compatible shared task next task' := by
  intro other hat hcompatible
  refine ⟨⟨?_, ?_, ?_, ?_, ?_, ?_, ?_⟩, ⟨?_, ?_, ?_⟩⟩
  · exact fun handle hmem => (hat.issued handle hmem).mono heffect.issued
  · intro hlane
    rcases heffect.lane (hat.lane hlane) with hnext | htask
    · exact hnext
    · exact absurd ⟨htask, hlane⟩ hcompatible.lane
  · intro hregisters
    rcases heffect.vacant (hat.vacant hregisters) with hnext | htask
    · exact hnext
    · exact absurd ⟨htask, lane_of_registers hregisters⟩ hcompatible.lane
  · intro handle result mismatch hholds
    obtain ⟨hreserved, hresult⟩ := hat.held handle result mismatch hholds
    obtain ⟨hkept, hsame⟩ := heffect.kept handle.waiter hreserved fun held hheld =>
      hcompatible.holds held _ hheld hholds
    refine ⟨hkept, fun hmismatch hopen => ?_⟩
    obtain ⟨hbefore, hresults⟩ := hsame hopen
    rw [hresults]
    exact hresult hmismatch hbefore
  · exact fun handle hawaits => heffect.waited (hat.awaited handle hawaits)
  · intro htarget handle hawaits hholds
    exact heffect.clear htarget _ (hat.unreserved htarget handle hawaits hholds)
      fun own hown => hcompatible.awaits own handle hown hawaits
  · exact hat.knows.mono heffect.offered heffect.frozen
  · rintro ⟨hnext, hother⟩
    rcases hclaims.lane hnext with htask | hfree
    · exact hcompatible.lane ⟨htask, hother⟩
    · exact absurd (hat.lane hother) (by simp [hfree])
  · rintro held ⟨handle, result, mismatch⟩ hheld hholds
    rcases hclaims.holds held hheld with ⟨before, hbefore, hsame⟩ | hfree
    · rw [← hsame]
      exact hcompatible.holds before _ hbefore hholds
    · intro hwaiter
      have hreserved := (hat.held handle result mismatch hholds).1
      rw [hwaiter] at hfree
      rw [hfree] at hreserved
      cases hreserved
  · intro handle waiting hhandle hwaiting
    rcases hclaims.awaits handle hhandle with htask | hfree
    · exact hcompatible.awaits handle waiting htask hwaiting
    · intro hwaiter
      rw [hwaiter] at hfree
      exact hfree (hat.awaited waiting hwaiting)

/-! ## The kinds of blocks -/

variable (binding shared task next task') in
/-- What every block of a caller does. -/
structure Keeps : Prop where
  holds : Holds binding next
  stands : At binding next task'
  effect : Effect binding shared next task
  claims : Claims shared task task'

variable (shared next) in
/-- The block leaves the waiters alone, issues nothing and registers nothing. -/
structure Silent : Prop where
  waiters : next.waiters = shared.waiters
  issued : next.issued = shared.issued
  pending : ∀ handle, next.pending = some handle → shared.pending = some handle
  offered : shared.offered ⊆ next.offered
  waited : shared.waited ⊆ next.waited
  returned : shared.returned ⊆ next.returned
  taken : shared.taken ⊆ next.taken
  handed : ∀ handle ∈ next.handed, handle ∈ shared.handed ∨ Issued shared handle.toFenceHandle

theorem Unfinished.of_silent {waiter : ℕ} (hunfinished : Unfinished next waiter)
    (hsilent : Silent shared next) : Unfinished shared waiter := by
  obtain ⟨hlt, hopen, hreturned, htaken⟩ := hunfinished
  rw [hsilent.issued] at hlt
  rw [hsilent.waiters] at hopen
  exact ⟨hlt, hopen, fun hmem => hreturned (hsilent.returned hmem),
    fun hmem => htaken (hsilent.taken hmem)⟩

theorem Holds.silent (hholds : Holds binding shared) (hsilent : Silent shared next)
    (halone : ∀ waiter handle, Unfinished next waiter → shared.pending = some handle →
      handle.waiter = waiter → next.pending = some handle) : Holds binding next where
  numbered := by
    rw [hsilent.issued]
    exact hholds.numbered
  tokens := by
    rw [hsilent.issued]
    exact hholds.tokens
  unmade := by
    rw [hsilent.issued, hsilent.waiters]
    exact hholds.unmade
  pending handle hpending := by
    have hissued := hholds.pending handle (hsilent.pending handle hpending)
    rwa [Issued, hsilent.issued]
  handed handle hmem := by
    rw [Issued, hsilent.issued]
    rcases hsilent.handed handle hmem with hbefore | hissued
    · exact hholds.handed handle hbefore
    · exact hissued
  final waiter hcompleted := by
    rw [hsilent.waiters] at hcompleted ⊢
    obtain ⟨hterminal, result, hresult, handle, hissued, hbacked⟩ := hholds.final waiter hcompleted
    refine ⟨hterminal, result, hresult, handle, by rw [hsilent.issued]; exact hissued, ?_⟩
    rw [hsilent.waiters]
    exact hbacked.imp id fun h => ⟨hsilent.offered h.1, h.2⟩
  alone waiter hunfinished := by
    obtain ⟨handle, hpending, hwaiter⟩ := hholds.alone waiter (hunfinished.of_silent hsilent)
    exact ⟨handle, halone waiter handle hunfinished hpending hwaiter, hwaiter⟩
  unwaited htarget waiter hmem := by
    rw [hsilent.waiters]
    exact hholds.unwaited htarget waiter fun h => hmem (hsilent.waited h)

theorem Silent.effect (hsilent : Silent shared next)
    (hlane : shared.lane = true → next.lane = true ∨ task.lane = true) :
    Effect binding shared next task where
  issued := by rw [hsilent.issued]
  offered := hsilent.offered
  waited := hsilent.waited
  frozen waiter _ := by rw [Frozen, hsilent.waiters]
  lane := hlane
  vacant hnone := by
    left
    cases hnext : next.pending with
    | none => rfl
    | some handle => exact absurd (hsilent.pending handle hnext) (by simp [hnone])
  single handle other hpending hnext :=
    Option.some.inj ((hsilent.pending other hnext).symm.trans hpending)
  kept waiter hreserved _ := by
    rw [hsilent.waiters]
    exact ⟨hreserved, fun hopen => ⟨hopen, rfl⟩⟩
  clear _ waiter hreserved _ := by
    rw [hsilent.waiters]
    exact hreserved

/-- The successor carries no more than the caller did, and holds no reservation. -/
structure Follows (task task' : Task) : Prop where
  names : ∀ handle ∈ task'.names, handle ∈ task.names
  registers : task'.registers = false
  holds : task'.holds = none
  awaits : ∀ handle, task'.awaits = some handle → task.awaits = some handle

theorem At.follow (hat : At binding shared task) (hfollows : Follows task task')
    (hissued : shared.issued <+: next.issued) (hwaited : shared.waited ⊆ next.waited)
    (hlane : task'.lane = true → next.lane = true)
    (hunreserved : binding.target = .buffer → ∀ handle, task'.awaits = some handle →
      (next.waiters handle.waiter).reserved = false)
    (hknows : Knows binding next task') : At binding next task' where
  issued handle hmem := (hat.issued handle (hfollows.names handle hmem)).mono hissued
  lane := hlane
  vacant hregisters := by
    rw [hfollows.registers] at hregisters
    cases hregisters
  held handle result mismatch hholds := by
    rw [hfollows.holds] at hholds
    cases hholds
  awaited handle hawaits := hwaited (hat.awaited handle (hfollows.awaits handle hawaits))
  unreserved htarget handle hawaits _ := hunreserved htarget handle hawaits
  knows := hknows

theorem Follows.claims (hfollows : Follows task task')
    (hlane : task'.lane = true → task.lane = true ∨ shared.lane = false) :
    Claims shared task task' where
  lane := hlane
  holds held hheld := by
    rw [hfollows.holds] at hheld
    cases hheld
  awaits handle hawaits := .inl (hfollows.awaits handle hawaits)

/-- A block of a caller without a reservation that leaves the waiters alone. -/
theorem Keeps.silent (hholds : Holds binding shared) (hat : At binding shared task)
    (hnone : task.holds = none) (hsilent : Silent shared next)
    (halone : ∀ waiter handle, Unfinished next waiter → shared.pending = some handle →
      handle.waiter = waiter → next.pending = some handle)
    (hfollows : Follows task task')
    (hlane : shared.lane = true → next.lane = true ∨ task.lane = true)
    (hlane' : task'.lane = true → next.lane = true ∧ (task.lane = true ∨ shared.lane = false))
    (hknows : Knows binding next task') : Keeps binding shared next task task' where
  holds := hholds.silent hsilent halone
  stands := by
    apply hat.follow hfollows (by rw [hsilent.issued]) hsilent.waited (fun h => (hlane' h).1)
    · intro htarget handle hawaits
      rw [hsilent.waiters]
      exact hat.unreserved htarget handle (hfollows.awaits handle hawaits) hnone
    · exact hknows
  effect := hsilent.effect hlane
  claims := hfollows.claims fun h => (hlane' h).2

variable (shared next) in
/-- Only the flags, the clock and the sequence differ. -/
structure Same : Prop where
  waiters : next.waiters = shared.waiters
  issued : next.issued = shared.issued
  pending : next.pending = shared.pending
  handed : next.handed = shared.handed
  waited : next.waited = shared.waited
  returned : next.returned = shared.returned
  taken : next.taken = shared.taken
  offered : next.offered = shared.offered

theorem Same.silent (hsame : Same shared next) : Silent shared next where
  waiters := hsame.waiters
  issued := hsame.issued
  pending handle hpending := by rwa [← hsame.pending]
  offered := by rw [hsame.offered]; exact List.Subset.refl _
  waited := by rw [hsame.waited]; exact List.Subset.refl _
  returned := by rw [hsame.returned]; exact List.Subset.refl _
  taken := by rw [hsame.taken]; exact List.Subset.refl _
  handed handle hmem := .inl (by rwa [← hsame.handed])

/-- A block that moves no more than flags. -/
theorem Keeps.flags (hholds : Holds binding shared) (hat : At binding shared task)
    (hnone : task.holds = none) (hsame : Same shared next) (hfollows : Follows task task')
    (hlane : shared.lane = true → next.lane = true ∨ task.lane = true)
    (hlane' : task'.lane = true → next.lane = true ∧ (task.lane = true ∨ shared.lane = false))
    (hknows : Knows binding next task') : Keeps binding shared next task task' := by
  refine Keeps.silent hholds hat hnone hsame.silent ?_ hfollows hlane hlane' hknows
  intro waiter handle _ hpending _
  rw [hsame.pending]
  exact hpending

/-- The same, when the shared state does not change at all. -/
theorem Keeps.unchanged (hholds : Holds binding shared) (hat : At binding shared task)
    (hnone : task.holds = none) (hfollows : Follows task task')
    (hlane : task'.lane = true → task.lane = true) (hknows : Knows binding shared task') :
    Keeps binding shared shared task task' :=
  Keeps.flags hholds hat hnone ⟨rfl, rfl, rfl, rfl, rfl, rfl, rfl, rfl⟩ hfollows .inl
    (fun hnext => ⟨hat.lane (hlane hnext), .inl (hlane hnext)⟩) hknows

theorem Follows.of_bare (hnames : task'.names = []) (hregisters : task'.registers = false)
    (hholds : task'.holds = none) (hawaits : task'.awaits = none) : Follows task task' where
  names handle hmem := by
    rw [hnames] at hmem
    cases hmem
  registers := hregisters
  holds := hholds
  awaits handle hsome := by
    rw [hawaits] at hsome
    cases hsome

theorem follows_left (status : Status) : Follows task (.left status) :=
  .of_bare rfl rfl rfl rfl

/-- A caller leaves and lets the lane go. -/
theorem Keeps.leaves (hholds : Holds binding shared) (hat : At binding shared task)
    (hnone : task.holds = none) (hlane : task.lane = true) (status : Status) :
    Keeps binding shared { shared with lane := false } task (.left status) :=
  Keeps.flags hholds hat hnone ⟨rfl, rfl, rfl, rfl, rfl, rfl, rfl, rfl⟩ (follows_left status)
    (fun _ => .inr hlane) (fun h => nomatch h) trivial

theorem keeps_checkGeneration {choice : Choice} {passed refused : Shared × Task}
    {resume : Resume} (hholds : Holds binding shared) (hat : At binding shared task)
    (hnone : task.holds = none)
    (hpassed : Keeps binding shared passed.1 task passed.2)
    (hrefused : Keeps binding shared refused.1 task refused.2)
    (hfollows : Follows task (.disconnect resume))
    (hlane : task.lane = true ∨ shared.lane = false)
    (hcheck : checkGeneration binding shared choice passed refused resume = (next, task')) :
    Keeps binding shared next task task' := by
  unfold checkGeneration at hcheck
  split_ifs at hcheck
  · rw [hcheck] at hrefused
    exact hrefused
  · rw [hcheck] at hpassed
    exact hpassed
  · obtain ⟨rfl, rfl⟩ := Prod.mk.inj hcheck
    exact Keeps.flags hholds hat hnone ⟨rfl, rfl, rfl, rfl, rfl, rfl, rfl, rfl⟩ hfollows
      (fun _ => .inl rfl) (fun _ => ⟨rfl, hlane⟩) trivial

/-! ## Writing a waiter -/

section SetWaiter

variable {handle : FenceHandle} {state : FenceWaiterState}

theorem Holds.setWaiter (hholds : Holds binding shared) (hissued : Issued shared handle)
    (hterminal : (shared.waiters handle.waiter).terminal = true → state.terminal = true)
    (hfinal : state.completedAt.isSome = true → state.terminal = true ∧
      ∃ result, state.result = some result ∧
        (result = disconnectedResult binding handle.throughSequence ∨
          ((handle.token, result) ∈ shared.offered ∧
            state.finalSample = some binding.transportGeneration)))
    (hunwaited : binding.target = .buffer → handle.waiter ∉ shared.waited →
      state.reserved = false) : Holds binding (shared.setWaiter handle.waiter state) where
  numbered := hholds.numbered
  tokens := hholds.tokens
  unmade waiter hle := by
    have hlt : handle.waiter < shared.issued.length := (List.getElem?_eq_some_iff.mp hissued).1
    have hne : waiter ≠ handle.waiter := fun heq => absurd hle (by rw [heq]; exact not_le.mpr hlt)
    simp only [Shared.setWaiter, Function.update_of_ne hne]
    exact hholds.unmade waiter hle
  pending := hholds.pending
  handed := hholds.handed
  final waiter hcompleted := by
    by_cases hwaiter : waiter = handle.waiter
    · subst hwaiter
      simp only [Shared.setWaiter, Function.update_self] at hcompleted ⊢
      obtain ⟨hended, result, hresult, hbacked⟩ := hfinal hcompleted
      refine ⟨hended, result, hresult, handle, hissued, ?_⟩
      simpa only [Function.update_self] using hbacked
    · simp only [Shared.setWaiter, Function.update_of_ne hwaiter] at hcompleted ⊢
      obtain ⟨hended, result, hresult, other, hother, hbacked⟩ := hholds.final waiter hcompleted
      refine ⟨hended, result, hresult, other, hother, ?_⟩
      simpa only [Function.update_of_ne hwaiter] using hbacked
  alone waiter hunfinished := by
    obtain ⟨hlt, hopen, hreturned, htaken⟩ := hunfinished
    refine hholds.alone waiter ⟨hlt, ?_, hreturned, htaken⟩
    by_cases hwaiter : waiter = handle.waiter
    · subst hwaiter
      simp only [Shared.setWaiter, Function.update_self] at hopen
      cases hended : (shared.waiters handle.waiter).terminal with
      | false => rfl
      | true => exact absurd (hterminal hended) (by simp [hopen])
    · simpa only [Shared.setWaiter, Function.update_of_ne hwaiter] using hopen
  unwaited htarget waiter hmem := by
    by_cases hwaiter : waiter = handle.waiter
    · subst hwaiter
      simpa only [Shared.setWaiter, Function.update_self] using hunwaited htarget hmem
    · simpa only [Shared.setWaiter, Function.update_of_ne hwaiter] using
        hholds.unwaited htarget waiter hmem

theorem effect_setWaiter
    (hfrozen : (shared.waiters handle.waiter).terminal = true →
      state = { shared.waiters handle.waiter with reserved := state.reserved })
    (hkept : (shared.waiters handle.waiter).reserved = true →
      (∀ held, task.holds = some held → held.1.waiter ≠ handle.waiter) →
      state.reserved = true ∧ state.terminal = true)
    (hclear : binding.target = .buffer → (shared.waiters handle.waiter).reserved = false →
      (∀ awaited, task.awaits = some awaited → awaited.waiter ≠ handle.waiter) →
      state.reserved = false) :
    Effect binding shared (shared.setWaiter handle.waiter state) task where
  issued := List.prefix_refl _
  offered := List.Subset.refl _
  waited := List.Subset.refl _
  frozen waiter hterminal := by
    by_cases hwaiter : waiter = handle.waiter
    · subst hwaiter
      simpa only [Frozen, Shared.setWaiter, Function.update_self] using hfrozen hterminal
    · simp only [Frozen, Shared.setWaiter, Function.update_of_ne hwaiter]
  lane := .inl
  vacant := .inl
  single _ _ hpending hnext := Option.some.inj (hnext.symm.trans hpending)
  kept waiter hreserved hother := by
    by_cases hwaiter : waiter = handle.waiter
    · subst hwaiter
      obtain ⟨hstays, hended⟩ := hkept hreserved hother
      simp only [Shared.setWaiter, Function.update_self]
      exact ⟨hstays, fun hopen => absurd hended (by simp [hopen])⟩
    · simp only [Shared.setWaiter, Function.update_of_ne hwaiter]
      exact ⟨hreserved, fun hopen => ⟨hopen, trivial⟩⟩
  clear htarget waiter hreserved hother := by
    by_cases hwaiter : waiter = handle.waiter
    · subst hwaiter
      simpa only [Shared.setWaiter, Function.update_self] using hclear htarget hreserved hother
    · simpa only [Shared.setWaiter, Function.update_of_ne hwaiter] using hreserved

end SetWaiter

/-! ## Every block -/

theorem keeps_submitBlock {choice : Choice} (hholds : Holds binding shared)
    (hat : At binding shared task)
    (hblock : submitBlock binding shared choice task = some (next, task')) :
    Keeps binding shared next task task' := by
  cases task with
  | submit =>
      obtain ⟨rfl, rfl⟩ := Prod.mk.inj (Option.some.inj hblock)
      split_ifs
      · exact Keeps.unchanged hholds hat rfl (.of_bare rfl rfl rfl rfl) (fun h => nomatch h) trivial
      · exact Keeps.unchanged hholds hat rfl (follows_left _) (fun h => nomatch h) trivial
  | submitLane =>
      simp only [submitBlock] at hblock
      split_ifs at hblock with hlane
      have hfree : shared.lane = false := by simpa using hlane
      refine keeps_checkGeneration hholds hat rfl ?_ ?_ (.of_bare rfl rfl rfl rfl) (.inr hfree)
        (Option.some.inj hblock)
      · exact Keeps.flags hholds hat rfl ⟨rfl, rfl, rfl, rfl, rfl, rfl, rfl, rfl⟩
          (.of_bare rfl rfl rfl rfl) (fun _ => .inl rfl) (fun _ => ⟨rfl, .inr hfree⟩) trivial
      · exact Keeps.unchanged hholds hat rfl (follows_left _) (fun h => nomatch h) trivial
  | submitPut =>
      simp only [submitBlock] at hblock
      split_ifs at hblock
      · obtain ⟨rfl, rfl⟩ := Prod.mk.inj (Option.some.inj hblock)
        exact Keeps.leaves hholds hat rfl rfl _
      · obtain ⟨rfl, rfl⟩ := Prod.mk.inj (Option.some.inj hblock)
        exact Keeps.flags hholds hat rfl ⟨rfl, rfl, rfl, rfl, rfl, rfl, rfl, rfl⟩
          (.of_bare rfl rfl rfl rfl) (fun h => .inl h) (fun _ => ⟨hat.lane rfl, .inl rfl⟩) trivial
  | submitCheck status =>
      refine keeps_checkGeneration hholds hat rfl ?_ ?_ (.of_bare rfl rfl rfl rfl) (.inl rfl)
        (Option.some.inj hblock)
      · exact Keeps.leaves hholds hat rfl rfl _
      · exact Keeps.leaves hholds hat rfl rfl _
  | _ => cases hblock

/-- A caller is handed the handle that it began. -/
theorem Keeps.hands (hholds : Holds binding shared) (hat : At binding shared task)
    (hnone : task.holds = none) {handle : TimedHandle}
    (hname : handle.toFenceHandle ∈ task.names) {lane : Bool}
    (hlane : shared.lane = true → lane = true ∨ task.lane = true) :
    Keeps binding shared { shared with lane, handed := shared.handed ++ [handle] } task
      (.began handle) := by
  refine Keeps.silent hholds hat hnone ⟨rfl, rfl, fun _ h => h, List.Subset.refl _,
    List.Subset.refl _, List.Subset.refl _, List.Subset.refl _, ?_⟩
    (fun _ _ _ hpending _ => hpending) ⟨?_, rfl, rfl, fun _ h => nomatch h⟩ hlane
    (fun h => nomatch h) trivial
  · intro other hmem
    rcases List.mem_append.mp hmem with hbefore | hnew
    · exact .inl hbefore
    · rw [List.mem_singleton.mp hnew]
      exact .inr (hat.issued _ hname)
  · intro other hmem
    rw [List.mem_singleton.mp hmem]
    exact hname

/-- A Fence is registered while none is pending. -/
theorem Holds.register (hholds : Holds binding shared) (hvacant : shared.pending = none)
    {token : AckToken} (hfresh : shared.issued.any (·.token == token) = false)
    (through : UInt64) :
    Holds binding { shared with
      pending := some ⟨token, through, shared.issued.length⟩
      issued := shared.issued ++ [⟨token, through, shared.issued.length⟩] } := by
  have hgrows : shared.issued <+: shared.issued ++ [⟨token, through, shared.issued.length⟩] :=
    List.prefix_append _ _
  refine ⟨?_, ?_, ?_, ?_, ?_, ?_, ?_, hholds.unwaited⟩
  · intro waiter handle hissued
    rcases lt_or_ge waiter shared.issued.length with hlt | hge
    · rw [List.getElem?_append_left hlt] at hissued
      exact hholds.numbered waiter handle hissued
    · rw [List.getElem?_append_right hge, List.getElem?_singleton] at hissued
      split_ifs at hissued with hlast
      obtain rfl := Option.some.inj hissued
      show shared.issued.length = waiter
      omega
  · have hnew : token ∉ shared.issued.map FenceHandle.token := by
      simpa using hfresh
    rw [List.map_append, List.nodup_append']
    refine ⟨hholds.tokens, List.nodup_singleton _, ?_⟩
    intro other hother hlast
    rw [List.mem_singleton.mp hlast] at hother
    exact hnew hother
  · intro waiter hle
    apply hholds.unmade waiter
    simp only [List.length_append, List.length_singleton] at hle
    omega
  · intro handle hpending
    obtain rfl := Option.some.inj hpending
    simp [Issued]
  · exact fun handle hmem => (hholds.handed handle hmem).mono hgrows
  · intro waiter hcompleted
    obtain ⟨hterminal, result, hresult, handle, hissued, hbacked⟩ := hholds.final waiter hcompleted
    have hlt : waiter < shared.issued.length := (List.getElem?_eq_some_iff.mp hissued).1
    refine ⟨hterminal, result, hresult, handle, ?_, hbacked⟩
    rw [List.getElem?_append_left hlt]
    exact hissued
  · rintro waiter ⟨hlt, hopen, hreturned, htaken⟩
    by_cases hlast : waiter = shared.issued.length
    · exact ⟨_, rfl, hlast.symm⟩
    · have hbefore : waiter < shared.issued.length := by
        simp only [List.length_append, List.length_singleton] at hlt
        omega
      obtain ⟨handle, hpending, -⟩ := hholds.alone waiter ⟨hbefore, hopen, hreturned, htaken⟩
      rw [hvacant] at hpending
      cases hpending

/-- A caller that neither waits nor holds a reservation. -/
theorem At.of_sender (hholds : task.holds = none) (hawaits : task.awaits = none)
    (hissued : ∀ handle ∈ task.names, Issued shared handle)
    (hlane : task.lane = true → shared.lane = true)
    (hvacant : task.registers = true → shared.pending = none) (hknows : Knows binding shared task) :
    At binding shared task where
  issued := hissued
  lane := hlane
  vacant := hvacant
  held handle result mismatch hsome := by
    rw [hholds] at hsome
    cases hsome
  awaited handle hsome := by
    rw [hawaits] at hsome
    cases hsome
  unreserved _ handle hsome := by
    rw [hawaits] at hsome
    cases hsome
  knows := hknows

theorem Claims.of_sender (hholds : task'.holds = none) (hawaits : task'.awaits = none)
    (hlane : task'.lane = true → task.lane = true ∨ shared.lane = false) :
    Claims shared task task' where
  lane := hlane
  holds held hsome := by
    rw [hholds] at hsome
    cases hsome
  awaits handle hsome := by
    rw [hawaits] at hsome
    cases hsome

theorem keeps_beginBlock {choice : Choice} (hholds : Holds binding shared)
    (hat : At binding shared task)
    (hblock : beginBlock binding shared choice task = some (next, task')) :
    Keeps binding shared next task task' := by
  cases task with
  | begin budget =>
      simp only [beginBlock] at hblock
      split_ifs at hblock
      all_goals obtain ⟨rfl, rfl⟩ := Prod.mk.inj (Option.some.inj hblock)
      all_goals
        exact Keeps.unchanged hholds hat rfl (.of_bare rfl rfl rfl rfl) (fun h => nomatch h) trivial
  | beginLane budget =>
      simp only [beginBlock] at hblock
      split_ifs at hblock with hlane
      have hfree : shared.lane = false := by simpa using hlane
      refine keeps_checkGeneration hholds hat rfl ?_ ?_ (.of_bare rfl rfl rfl rfl) (.inr hfree)
        (Option.some.inj hblock)
      · exact Keeps.flags hholds hat rfl ⟨rfl, rfl, rfl, rfl, rfl, rfl, rfl, rfl⟩
          (.of_bare rfl rfl rfl rfl) (fun _ => .inl rfl) (fun _ => ⟨rfl, .inr hfree⟩) trivial
      · exact Keeps.unchanged hholds hat rfl (follows_left _) (fun h => nomatch h) trivial
  | beginPending budget =>
      simp only [beginBlock] at hblock
      split_ifs at hblock with hrefused
      · obtain ⟨rfl, rfl⟩ := Prod.mk.inj (Option.some.inj hblock)
        exact Keeps.leaves hholds hat rfl rfl _
      · obtain ⟨rfl, rfl⟩ := Prod.mk.inj (Option.some.inj hblock)
        have hvacant : shared.pending = none := by
          simp only [not_or, Bool.not_eq_true, Option.isSome_eq_false_iff,
            Option.isNone_iff_eq_none] at hrefused
          exact hrefused.2.2.1
        have hsilent : Silent shared shared := ⟨rfl, rfl, fun _ h => h, List.Subset.refl _,
          List.Subset.refl _, List.Subset.refl _, List.Subset.refl _, fun _ h => .inl h⟩
        refine ⟨hholds, ?_, hsilent.effect .inl, .of_sender rfl rfl fun _ => .inl rfl⟩
        exact .of_sender rfl rfl (fun _ h => nomatch h) (fun _ => hat.lane rfl) (fun _ => hvacant)
          trivial
  | register budget =>
      simp only [beginBlock] at hblock
      split_ifs at hblock with hdrawn
      obtain ⟨rfl, rfl⟩ := Prod.mk.inj (Option.some.inj hblock)
      have hnext := hholds.register (hat.vacant rfl) (by simpa using hdrawn) shared.lastSequence
      refine ⟨hnext, ?_, ?_, .of_sender rfl rfl fun _ => .inl rfl⟩
      · refine .of_sender rfl rfl ?_ (fun _ => hat.lane rfl) (fun h => nomatch h) trivial
        intro handle hmem
        rw [List.mem_singleton.mp hmem]
        exact hnext.pending _ rfl
      · refine ⟨List.prefix_append _ _, List.Subset.refl _, List.Subset.refl _, fun _ _ => rfl, .inl,
          fun _ => .inr rfl, fun handle _ hpending _ => ?_,
          fun _ hreserved _ => ⟨hreserved, fun hopen => ⟨hopen, rfl⟩⟩,
          fun _ _ hreserved _ => hreserved⟩
        exact absurd ((hat.vacant rfl).symm.trans hpending) (by simp)
  | putMarker handle budget =>
      obtain ⟨rfl, rfl⟩ := Prod.mk.inj (Option.some.inj hblock)
      exact Keeps.unchanged hholds hat rfl ⟨fun _ h => h, rfl, rfl, fun _ h => h⟩ (fun h => h)
        trivial
  | beginCheck handle =>
      have hfollows : Follows (.beginCheck handle) (.disconnect (.stale handle)) :=
        ⟨fun _ h => h, rfl, rfl, fun _ h => h⟩
      refine keeps_checkGeneration hholds hat rfl ?_ ?_ hfollows (.inl rfl)
        (Option.some.inj hblock)
      · exact Keeps.hands hholds hat rfl (List.mem_singleton.mpr rfl) fun _ => .inr rfl
      · exact Keeps.flags hholds hat rfl ⟨rfl, rfl, rfl, rfl, rfl, rfl, rfl, rfl⟩
          ⟨fun _ h => h, rfl, rfl, fun _ h => h⟩ (fun _ => .inr rfl) (fun h => nomatch h) trivial
  | stale handle =>
      simp only [beginBlock] at hblock
      split_ifs at hblock
      · obtain ⟨rfl, rfl⟩ := Prod.mk.inj (Option.some.inj hblock)
        exact Keeps.hands hholds hat rfl (List.mem_singleton.mpr rfl) .inl
      · obtain ⟨rfl, rfl⟩ := Prod.mk.inj (Option.some.inj hblock)
        exact Keeps.unchanged hholds hat rfl (follows_left _) (fun h => nomatch h) trivial
  | _ => cases hblock

/-- The caller goes on after the pending waiter was cancelled. -/
theorem keeps_resumed {middle : Shared} {resume : Resume} (hat : At binding shared task)
    (hholds : Holds binding middle) (heffect : Effect binding shared middle task)
    (hlane : task.lane = resume.lane) (hawaits : task.awaits = resume.awaits)
    (hnames : ∀ handle ∈ resume.names, handle ∈ task.names)
    (hunreserved : binding.target = .buffer → ∀ handle, resume.awaits = some handle →
      (middle.waiters handle.waiter).reserved = false)
    (hresumed : resumed middle resume = (next, task')) :
    Keeps binding shared next task task' := by
  have hreleased : Holds binding { middle with lane := false } :=
    hholds.silent ⟨rfl, rfl, fun _ h => h, List.Subset.refl _, List.Subset.refl _,
      List.Subset.refl _, List.Subset.refl _, fun _ h => .inl h⟩ fun _ _ _ hpending _ => hpending
  have hrelease : task.lane = true → Effect binding shared { middle with lane := false } task :=
    fun hheld => ⟨heffect.issued, heffect.offered, heffect.waited, heffect.frozen,
      fun _ => .inr hheld, heffect.vacant, heffect.single, heffect.kept, heffect.clear⟩
  cases resume with
  | leave =>
      obtain ⟨rfl, rfl⟩ := Prod.mk.inj hresumed
      exact ⟨hreleased, .of_sender rfl rfl (fun _ h => nomatch h) (fun h => nomatch h)
        (fun h => nomatch h) trivial, hrelease hlane, .of_sender rfl rfl fun h => nomatch h⟩
  | close =>
      obtain ⟨rfl, rfl⟩ := Prod.mk.inj hresumed
      exact ⟨hreleased, .of_sender rfl rfl (fun _ h => nomatch h) (fun h => nomatch h)
        (fun h => nomatch h) trivial, hrelease hlane, .of_sender rfl rfl fun h => nomatch h⟩
  | stale handle =>
      obtain ⟨rfl, rfl⟩ := Prod.mk.inj hresumed
      refine ⟨hreleased, .of_sender rfl rfl ?_ (fun h => nomatch h) (fun h => nomatch h) trivial,
        hrelease hlane, .of_sender rfl rfl fun h => nomatch h⟩
      exact fun other hmem => (hat.issued other (hnames other hmem)).mono heffect.issued
  | wait handle =>
      obtain ⟨rfl, rfl⟩ := Prod.mk.inj hresumed
      have hfollows : Follows task (.waitTarget handle) :=
        ⟨hnames, rfl, rfl, fun other h => hawaits.trans h⟩
      refine ⟨hholds, ?_, heffect, hfollows.claims fun h => nomatch h⟩
      exact hat.follow hfollows heffect.issued heffect.waited (fun h => nomatch h) hunreserved trivial

/-- A caller makes an open waiter terminal and leaves its reservation alone. -/
theorem effect_ends {handle : FenceHandle} {state : FenceWaiterState}
    (hopen : (shared.waiters handle.waiter).terminal = false) (hterminal : state.terminal = true)
    (hreserved : state.reserved = (shared.waiters handle.waiter).reserved) :
    Effect binding shared (shared.setWaiter handle.waiter state) task := by
  apply effect_setWaiter
  · exact fun hended => absurd hended (by simp [hopen])
  · exact fun hheld _ => ⟨hreserved.trans hheld, hterminal⟩
  · exact fun _ hfree _ => hreserved.trans hfree

theorem reserved_setWaiter {handle : FenceHandle} {state : FenceWaiterState}
    (hreserved : state.reserved = (shared.waiters handle.waiter).reserved) (waiter : ℕ) :
    ((shared.setWaiter handle.waiter state).waiters waiter).reserved =
      (shared.waiters waiter).reserved := by
  by_cases hwaiter : waiter = handle.waiter
  · subst hwaiter
    simpa [Shared.setWaiter] using hreserved
  · simp [Shared.setWaiter, hwaiter]

theorem keeps_closeBlock (hholds : Holds binding shared) (hat : At binding shared task)
    (hblock : closeBlock binding shared task = some (next, task')) :
    Keeps binding shared next task task' := by
  cases task with
  | close =>
      obtain ⟨rfl, rfl⟩ := Prod.mk.inj (Option.some.inj hblock)
      exact Keeps.flags hholds hat rfl ⟨rfl, rfl, rfl, rfl, rfl, rfl, rfl, rfl⟩
        (.of_bare rfl rfl rfl rfl) .inl (fun h => nomatch h) trivial
  | closeLane =>
      simp only [closeBlock] at hblock
      split_ifs at hblock with hlane
      obtain ⟨rfl, rfl⟩ := Prod.mk.inj (Option.some.inj hblock)
      exact Keeps.flags hholds hat rfl ⟨rfl, rfl, rfl, rfl, rfl, rfl, rfl, rfl⟩
        (.of_bare rfl rfl rfl rfl) (fun _ => .inl rfl)
        (fun _ => ⟨rfl, .inr (by simpa using hlane)⟩) trivial
  | disconnect resume =>
      obtain ⟨rfl, rfl⟩ := Prod.mk.inj (Option.some.inj hblock)
      exact Keeps.flags hholds hat rfl ⟨rfl, rfl, rfl, rfl, rfl, rfl, rfl, rfl⟩
        ⟨fun _ h => h, rfl, rfl, fun _ h => h⟩ .inl (fun h => ⟨hat.lane h, .inl h⟩) trivial
  | cancel resume =>
      have hunreserved : binding.target = .buffer → ∀ handle, resume.awaits = some handle →
          (shared.waiters handle.waiter).reserved = false := fun htarget handle hawaits =>
        hat.unreserved htarget handle hawaits rfl
      cases hpending : shared.pending with
      | none =>
          simp only [closeBlock, hpending] at hblock
          exact keeps_resumed hat hholds
            (Silent.effect ⟨rfl, rfl, fun _ h => h, List.Subset.refl _, List.Subset.refl _,
              List.Subset.refl _, List.Subset.refl _, fun _ h => .inl h⟩ .inl)
            rfl rfl (fun _ h => h) hunreserved (Option.some.inj hblock)
      | some handle =>
          simp only [closeBlock, hpending] at hblock
          obtain ⟨rfl, rfl⟩ := Prod.mk.inj (Option.some.inj hblock)
          have hsilent : Silent shared
              { shared with pending := none, taken := shared.taken ++ [handle.waiter] } :=
            ⟨rfl, rfl, fun _ h => (nomatch h), List.Subset.refl _, List.Subset.refl _,
              List.Subset.refl _, List.subset_append_left _ _, fun _ h => .inl h⟩
          refine ⟨hholds.silent hsilent ?_, ⟨?_, hat.lane, fun h => (nomatch h),
            fun _ _ _ h => (nomatch h), hat.awaited, fun htarget other h _ =>
              hunreserved htarget other h, trivial⟩, hsilent.effect .inl,
            ⟨.inl, fun _ h => (nomatch h), fun _ h => .inl h⟩⟩
          · intro waiter other hunfinished hother hwaiter
            obtain rfl := Option.some.inj (hpending.symm.trans hother)
            exact absurd (List.mem_append_right _ (List.mem_singleton.mpr hwaiter.symm))
              hunfinished.2.2.2
          · intro other hmem
            rcases List.mem_cons.mp hmem with rfl | hmem
            · exact hholds.pending _ hpending
            · exact hat.issued other hmem
  | cancelled handle resume =>
      have hissued : Issued shared handle := hat.issued handle List.mem_cons_self
      have hunreserved : binding.target = .buffer → ∀ waited, resume.awaits = some waited →
          (shared.waiters waited.waiter).reserved = false := fun htarget waited hawaits =>
        hat.unreserved htarget waited hawaits rfl
      simp only [closeBlock] at hblock
      split_ifs at hblock with hterminal
      · exact keeps_resumed hat hholds
          (Silent.effect ⟨rfl, rfl, fun _ h => h, List.Subset.refl _, List.Subset.refl _,
            List.Subset.refl _, List.Subset.refl _, fun _ h => .inl h⟩ .inl)
          rfl rfl (fun _ h => List.mem_cons_of_mem _ h) hunreserved (Option.some.inj hblock)
      · refine keeps_resumed hat ?_ ?_ rfl rfl (fun _ h => List.mem_cons_of_mem _ h) ?_
          (Option.some.inj hblock)
        · apply hholds.setWaiter hissued (fun _ => rfl) (fun _ => ⟨rfl, _, rfl, .inl rfl⟩)
          exact fun htarget hmem => hholds.unwaited htarget _ hmem
        · exact effect_ends (by simpa using hterminal) rfl rfl
        · intro htarget waited hawaits
          exact (reserved_setWaiter (by rfl) _).trans (hunreserved htarget waited hawaits)
  | mark marked =>
      obtain ⟨rfl, rfl⟩ := Prod.mk.inj (Option.some.inj hblock)
      exact Keeps.flags hholds hat rfl ⟨rfl, rfl, rfl, rfl, rfl, rfl, rfl, rfl⟩
        ⟨fun _ h => h, rfl, rfl, fun _ h => h⟩ .inl (fun h => nomatch h)
        (MarkedAt.mono hat.knows fun _ _ => rfl)
  | stop marked =>
      obtain ⟨rfl, rfl⟩ := Prod.mk.inj (Option.some.inj hblock)
      cases marked with
      | wait handle =>
          exact Keeps.flags hholds hat rfl ⟨rfl, rfl, rfl, rfl, rfl, rfl, rfl, rfl⟩
            ⟨fun _ h => h, rfl, rfl, fun _ h => h⟩ .inl (fun h => nomatch h) trivial
      | complete =>
          exact Keeps.flags hholds hat rfl ⟨rfl, rfl, rfl, rfl, rfl, rfl, rfl, rfl⟩
            (.of_bare rfl rfl rfl rfl) .inl (fun h => nomatch h) trivial
      | poll handle result malformed =>
          exact Keeps.flags hholds hat rfl ⟨rfl, rfl, rfl, rfl, rfl, rfl, rfl, rfl⟩
            ⟨fun _ h => h, rfl, rfl, fun _ h => h⟩ .inl (fun h => nomatch h)
            ⟨hat.knows.1, fun _ => hat.knows.2⟩
  | _ => cases hblock

/-- A completion that found its waiter taken or terminal. -/
theorem keeps_notPublished {handle : FenceHandle} {result : AckResultV1} {origin : Origin}
    (hat : At binding shared task) (hholds : Holds binding next)
    (heffect : Effect binding shared next task) (horigin : OriginAt binding handle origin)
    (hnames : task.names = [handle]) (hawaits : task.awaits = origin.awaits)
    (hunreserved : binding.target = .buffer → (next.waiters handle.waiter).reserved = false)
    (hterminal : binding.target = .buffer → (next.waiters handle.waiter).terminal = true) :
    Keeps binding shared next task (notPublished result origin) := by
  cases origin with
  | complete =>
      exact ⟨hholds, .of_sender rfl rfl (fun _ h => nomatch h) (fun h => nomatch h)
        (fun h => nomatch h) trivial, heffect, .of_sender rfl rfl fun h => nomatch h⟩
  | poll waited malformed =>
      obtain ⟨htarget, rfl⟩ := horigin
      have hfollows : Follows task (.query waited (some result) malformed) := by
        refine ⟨fun other hmem => ?_, rfl, rfl, fun other h => hawaits.trans h⟩
        rw [hnames]
        exact hmem
      refine ⟨hholds, ?_, heffect, hfollows.claims fun h => nomatch h⟩
      refine hat.follow hfollows heffect.issued heffect.waited (fun h => nomatch h) ?_
        ⟨htarget, fun _ => hterminal htarget⟩
      intro _ other hother
      obtain rfl := Option.some.inj hother
      exact hunreserved htarget

/-- A completion that made its waiter terminal. -/
theorem keeps_published {handle : FenceHandle} {result : AckResultV1} {origin : Origin}
    {mismatch : Bool} (hat : At binding shared task) (hholds : Holds binding next)
    (heffect : Effect binding shared next task) (horigin : OriginAt binding handle origin)
    (hnames : task.names = [handle]) (hawaits : task.awaits = origin.awaits)
    (hunreserved : (next.waiters handle.waiter).reserved = false)
    (hterminal : (next.waiters handle.waiter).terminal = true) :
    Keeps binding shared next task (published handle result mismatch origin) := by
  cases origin with
  | complete =>
      refine ⟨hholds, .of_sender rfl rfl ?_ (fun h => nomatch h) (fun h => nomatch h) hterminal,
        heffect, .of_sender rfl rfl fun h => nomatch h⟩
      intro other hmem
      exact (hat.issued other (by rw [hnames]; exact hmem)).mono heffect.issued
  | poll waited malformed =>
      obtain ⟨htarget, rfl⟩ := horigin
      have hreserved : ∀ {successor : Task}, successor.awaits = some waited →
          binding.target = .buffer → ∀ other, successor.awaits = some other →
          (next.waiters other.waiter).reserved = false := by
        intro successor hsuccessor _ other hother
        obtain rfl := Option.some.inj (hsuccessor.symm.trans hother)
        exact hunreserved
      have hcarried : ∀ other ∈ [waited.toFenceHandle], other ∈ task.names := by
        rw [hnames]
        exact fun _ h => h
      unfold published
      dsimp only
      split_ifs
      · have hfollows : Follows task (.mark (.poll waited result malformed)) :=
          ⟨hcarried, rfl, rfl, fun other h => hawaits.trans h⟩
        refine ⟨hholds, ?_, heffect, hfollows.claims fun h => nomatch h⟩
        exact hat.follow hfollows heffect.issued heffect.waited (fun h => nomatch h)
          (hreserved rfl) ⟨htarget, hterminal⟩
      · have hfollows : Follows task (.query waited (some result) malformed) :=
          ⟨hcarried, rfl, rfl, fun other h => hawaits.trans h⟩
        refine ⟨hholds, ?_, heffect, hfollows.claims fun h => nomatch h⟩
        exact hat.follow hfollows heffect.issued heffect.waited (fun h => nomatch h)
          (hreserved rfl) ⟨htarget, fun _ => hterminal⟩

/-- Nobody else reserves the waiter that a buffer polls for. -/
theorem At.unreserved_of_origin {handle : FenceHandle} {origin : Origin}
    (hat : At binding shared task) (horigin : OriginAt binding handle origin)
    (hawaits : task.awaits = origin.awaits) (hnone : task.holds = none)
    (htarget : binding.target = .buffer) : (shared.waiters handle.waiter).reserved = false := by
  cases origin with
  | complete => exact absurd (htarget.symm.trans horigin) (by decide)
  | poll waited malformed =>
      obtain ⟨-, rfl⟩ := horigin
      exact hat.unreserved htarget waited hawaits hnone

theorem At.awaited_of_origin {handle : FenceHandle} {origin : Origin}
    (hat : At binding shared task) (horigin : OriginAt binding handle origin)
    (hawaits : task.awaits = origin.awaits) (htarget : binding.target = .buffer) :
    handle.waiter ∈ shared.waited ∧ ∃ waited, task.awaits = some waited ∧
      waited.waiter = handle.waiter := by
  cases origin with
  | complete => exact absurd (htarget.symm.trans horigin) (by decide)
  | poll waited malformed =>
      obtain ⟨-, rfl⟩ := horigin
      exact ⟨hat.awaited waited hawaits, waited, hawaits, rfl⟩

theorem Holds.final_of_issued {handle : FenceHandle} (hholds : Holds binding shared)
    (hissued : Issued shared handle)
    (hcompleted : (shared.waiters handle.waiter).completedAt.isSome = true) :
    (shared.waiters handle.waiter).terminal = true ∧
      ∃ result, (shared.waiters handle.waiter).result = some result ∧
        (result = disconnectedResult binding handle.throughSequence ∨
          ((handle.token, result) ∈ shared.offered ∧
            (shared.waiters handle.waiter).finalSample = some binding.transportGeneration)) := by
  obtain ⟨hterminal, result, hresult, other, hother, hbacked⟩ := hholds.final _ hcompleted
  obtain rfl := Option.some.inj (hissued.symm.trans hother)
  exact ⟨hterminal, result, hresult, hbacked⟩

theorem silent_refl (shared : Shared) : Silent shared shared :=
  Same.silent ⟨rfl, rfl, rfl, rfl, rfl, rfl, rfl, rfl⟩

theorem keeps_reserve {handle : FenceHandle} {result : AckResultV1} {mismatch : Bool}
    {origin : Origin} (hholds : Holds binding shared)
    (hat : At binding shared (.reserve handle result mismatch origin))
    (hopen : (shared.waiters handle.waiter).terminal = false)
    (hfree : (shared.waiters handle.waiter).reserved = false) :
    Keeps binding shared
      (shared.setWaiter handle.waiter
        { shared.waiters handle.waiter with
          reserved := true
          result := some
            (if mismatch then disconnectedResult binding handle.throughSequence else result)
          completedOnBoundGeneration := !mismatch })
      (.reserve handle result mismatch origin) (.validate handle result mismatch origin) := by
  have hissued : Issued shared handle := hat.issued handle (List.mem_singleton.mpr rfl)
  obtain ⟨hoffered, horigin⟩ := hat.knows
  refine ⟨?_, ?_, ?_, ⟨fun h => (nomatch h), fun held hheld => .inr ?_, fun _ h => .inl h⟩⟩
  · refine hholds.setWaiter hissued (fun hterminal => ?_) (fun hcompleted => ?_)
      (fun htarget hmem => ?_)
    · exact absurd hterminal (by simp [hopen])
    · exact absurd (hholds.final_of_issued hissued hcompleted).1 (by simp [hopen])
    · exact absurd (hat.awaited_of_origin horigin rfl htarget).1 hmem
  · refine ⟨hat.issued, fun h => (nomatch h), fun h => (nomatch h), ?_, hat.awaited,
      fun _ _ _ h => (nomatch h), hoffered, horigin⟩
    intro held offered seen hheld
    obtain ⟨rfl, rfl, rfl⟩ : handle = held ∧ result = offered ∧ mismatch = seen := by
      simpa [Task.holds] using hheld
    simp only [Shared.setWaiter, Function.update_self, true_and]
    intro hseen _
    simp [hseen]
  · apply effect_setWaiter
    · exact fun hterminal => absurd hterminal (by simp [hopen])
    · exact fun hreserved => absurd hreserved (by simp [hfree])
    · intro htarget _ hother
      obtain ⟨-, waited, hwaited, hsame⟩ := hat.awaited_of_origin horigin rfl htarget
      exact absurd hsame (hother waited hwaited)
  · obtain rfl := Option.some.inj hheld
    exact hfree

theorem keeps_commit {handle : FenceHandle} {result : AckResultV1} {mismatch : Bool}
    {sampled : Option UInt64} {origin : Origin} (state : FenceWaiterState)
    (hholds : Holds binding shared)
    (hat : At binding shared (.commit handle result mismatch sampled origin))
    (hreserved : state.reserved = false)
    (hfrozen : (shared.waiters handle.waiter).terminal = true →
      state = { shared.waiters handle.waiter with reserved := state.reserved })
    (hfinal : (shared.waiters handle.waiter).terminal = false → state.terminal = true ∧
      ∃ final, state.result = some final ∧
        (final = disconnectedResult binding handle.throughSequence ∨
          ((handle.token, final) ∈ shared.offered ∧
            state.finalSample = some binding.transportGeneration))) :
    Holds binding (shared.setWaiter handle.waiter state) ∧
      Effect binding shared (shared.setWaiter handle.waiter state)
        (.commit handle result mismatch sampled origin) := by
  have hissued : Issued shared handle := hat.issued handle (List.mem_singleton.mpr rfl)
  constructor
  · refine hholds.setWaiter hissued (fun hterminal => ?_) (fun hcompleted => ?_)
      (fun _ _ => hreserved)
    · rw [hfrozen hterminal]
      exact hterminal
    · cases hterminal : (shared.waiters handle.waiter).terminal with
      | false => exact hfinal hterminal
      | true =>
          rw [hfrozen hterminal] at hcompleted ⊢
          exact hholds.final_of_issued hissued hcompleted
  · apply effect_setWaiter hfrozen
    · exact fun _ hother => absurd rfl (hother (handle, result, mismatch) rfl)
    · exact fun _ _ _ => hreserved

theorem keeps_publishBlock {choice : Choice} (hholds : Holds binding shared)
    (hat : At binding shared task)
    (hblock : publishBlock binding shared choice task = some (next, task')) :
    Keeps binding shared next task task' := by
  cases task with
  | sample handle result origin =>
      obtain ⟨rfl, rfl⟩ := Prod.mk.inj (Option.some.inj hblock)
      exact Keeps.unchanged hholds hat rfl ⟨fun _ h => h, rfl, rfl, fun _ h => h⟩
        (fun h => nomatch h) hat.knows
  | reserve handle result mismatch origin =>
      simp only [publishBlock] at hblock
      by_cases htaken : (shared.waiters handle.waiter).terminal = true ∨
          (shared.waiters handle.waiter).reserved = true
      · rw [if_pos htaken] at hblock
        obtain ⟨rfl, rfl⟩ := Prod.mk.inj (Option.some.inj hblock)
        have hfree := hat.unreserved_of_origin hat.knows.2 rfl rfl
        refine keeps_notPublished hat hholds ((silent_refl shared).effect .inl) hat.knows.2 rfl rfl
          hfree fun htarget => htaken.resolve_right ?_
        simp [hfree htarget]
      · rw [if_neg htaken] at hblock
        obtain ⟨rfl, rfl⟩ := Prod.mk.inj (Option.some.inj hblock)
        obtain ⟨hopen, hfree⟩ := not_or.mp htaken
        exact keeps_reserve hholds hat (by simpa using hopen) (by simpa using hfree)
  | validate handle result mismatch origin =>
      obtain ⟨hoffered, horigin⟩ := hat.knows
      obtain ⟨hreserved, hprovisional⟩ := hat.held handle result mismatch rfl
      simp only [publishBlock] at hblock
      split_ifs at hblock with hmismatch
      · obtain ⟨rfl, rfl⟩ := Prod.mk.inj (Option.some.inj hblock)
        refine ⟨hholds, ⟨hat.issued, fun h => (nomatch h), fun h => (nomatch h), ?_, hat.awaited,
          fun _ _ _ h => (nomatch h), hoffered, horigin, fun h => nomatch h⟩,
          (silent_refl shared).effect .inl,
          ⟨fun h => (nomatch h), fun held hheld => .inl ⟨_, rfl, ?_⟩, fun _ h => .inl h⟩⟩
        · intro held offered seen hheld
          obtain ⟨rfl, rfl, rfl⟩ : handle = held ∧ result = offered ∧ true = seen := by
            simpa [Task.holds] using hheld
          exact ⟨hreserved, fun h => nomatch h⟩
        · obtain rfl := Option.some.inj hheld
          rfl
      · obtain ⟨rfl, rfl⟩ := Prod.mk.inj (Option.some.inj hblock)
        refine ⟨hholds, ⟨hat.issued, fun h => (nomatch h), fun h => (nomatch h), ?_, hat.awaited,
          fun _ _ _ h => (nomatch h), hoffered, horigin, fun hcurrent => ?_⟩,
          (silent_refl shared).effect .inl,
          ⟨fun h => (nomatch h), fun held hheld => .inl ⟨_, rfl, ?_⟩, fun _ h => .inl h⟩⟩
        · intro held offered seen hheld
          obtain ⟨rfl, rfl, -⟩ : handle = held ∧ result = offered ∧ _ := by
            simpa [Task.holds] using hheld
          exact ⟨hreserved, fun _ => hprovisional (by simpa using hmismatch)⟩
        · have hsample : shared.generation = binding.transportGeneration := by
            simp only [Shared.mismatched, Bool.or_eq_false_iff, bne_eq_false_iff_eq] at hcurrent
            exact hcurrent.2
          rw [hsample]
        · obtain rfl := Option.some.inj hheld
          rfl
  | commit handle result mismatch sampled origin =>
      obtain ⟨hoffered, horigin, hsampled⟩ := hat.knows
      obtain ⟨-, hprovisional⟩ := hat.held handle result mismatch rfl
      simp only [publishBlock] at hblock
      split_ifs at hblock with hterminal hmismatch
      · obtain ⟨rfl, rfl⟩ := Prod.mk.inj (Option.some.inj hblock)
        obtain ⟨hnext, heffect⟩ := keeps_commit
          { shared.waiters handle.waiter with reserved := false } hholds hat rfl
          (fun _ => rfl) (fun hopen => absurd hterminal (by simp [hopen]))
        refine keeps_notPublished hat hnext heffect horigin rfl rfl ?_ ?_
        · simp [Shared.setWaiter]
        · simpa [Shared.setWaiter] using fun _ => hterminal
      · obtain ⟨rfl, rfl⟩ := Prod.mk.inj (Option.some.inj hblock)
        obtain ⟨hnext, heffect⟩ := keeps_commit
          { shared.waiters handle.waiter with
            reserved := false
            result := some (disconnectedResult binding handle.throughSequence)
            completedOnBoundGeneration := false
            completedAt := some shared.now
            terminal := true
            finalSample := sampled } hholds hat rfl
          (fun hended => absurd hended hterminal) (fun _ => ⟨rfl, _, rfl, .inl rfl⟩)
        refine keeps_published hat hnext heffect horigin rfl rfl ?_ ?_
        · simp [Shared.setWaiter]
        · simp [Shared.setWaiter]
      · obtain ⟨rfl, rfl⟩ := Prod.mk.inj (Option.some.inj hblock)
        have hopen : (shared.waiters handle.waiter).terminal = false := by simpa using hterminal
        have hcurrent : mismatch = false := by simpa using hmismatch
        obtain ⟨hnext, heffect⟩ := keeps_commit
          { shared.waiters handle.waiter with
            reserved := false
            completedAt := some shared.now
            terminal := true
            finalSample := sampled } hholds hat rfl
          (fun hended => absurd hended hterminal)
          (fun _ => ⟨rfl, result, hprovisional hcurrent hopen, .inr ⟨hoffered, hsampled hcurrent⟩⟩)
        refine keeps_published hat hnext heffect horigin rfl rfl ?_ ?_
        · simp [Shared.setWaiter]
        · simp [Shared.setWaiter]
  | complete token result =>
      obtain ⟨htarget, hoffered⟩ := hat.knows
      cases hpending : shared.pending with
      | none =>
          simp only [publishBlock, hpending] at hblock
          obtain ⟨rfl, rfl⟩ := Prod.mk.inj (Option.some.inj hblock)
          exact Keeps.unchanged hholds hat rfl (.of_bare rfl rfl rfl rfl) (fun h => nomatch h)
            trivial
      | some handle =>
          simp only [publishBlock, hpending] at hblock
          split_ifs at hblock with htoken
          · obtain ⟨rfl, rfl⟩ := Prod.mk.inj (Option.some.inj hblock)
            exact Keeps.unchanged hholds hat rfl (.of_bare rfl rfl rfl rfl) (fun h => nomatch h)
              trivial
          · obtain ⟨rfl, rfl⟩ := Prod.mk.inj (Option.some.inj hblock)
            obtain rfl := not_not.mp htoken
            refine ⟨hholds, .of_sender rfl rfl ?_ (fun h => nomatch h) (fun h => nomatch h)
              ⟨hoffered, htarget⟩, (silent_refl shared).effect .inl,
              .of_sender rfl rfl fun h => nomatch h⟩
            intro other hmem
            rw [List.mem_singleton.mp hmem]
            exact hholds.pending handle hpending
  | unregister handle mismatch =>
      have hterminal : (shared.waiters handle.waiter).terminal = true := hat.knows
      simp only [publishBlock] at hblock
      obtain ⟨rfl, rfl⟩ := Prod.mk.inj (Option.some.inj hblock)
      have hfollows : Follows (.unregister handle mismatch)
          (if mismatch then .mark .complete else .completed true) := by
        split_ifs
        · exact .of_bare rfl rfl rfl rfl
        · exact .of_bare rfl rfl rfl rfl
      have hbare : (if mismatch then Task.mark .complete else .completed true).lane ≠ true ∧
          ∀ next, Knows binding next (if mismatch then Task.mark .complete else .completed true) := by
        split_ifs
        · exact ⟨by decide, fun _ => trivial⟩
        · exact ⟨by decide, fun _ => trivial⟩
      by_cases hreset : (shared.pending.any fun pending =>
          pending.token == handle.token && pending.waiter == handle.waiter) = true
      · rw [if_pos hreset]
        refine Keeps.silent hholds hat rfl ⟨rfl, rfl, fun _ h => (nomatch h), List.Subset.refl _,
          List.Subset.refl _, List.Subset.refl _, List.Subset.refl _, fun _ h => .inl h⟩ ?_ hfollows
          .inl (fun h => absurd h hbare.1) (hbare.2 _)
        intro waiter pending hunfinished hpending hwaiter
        simp only [hpending, Option.any_some, Bool.and_eq_true, beq_iff_eq] at hreset
        have hopen : (shared.waiters waiter).terminal = false := hunfinished.2.1
        rw [← hwaiter, hreset.2, hterminal] at hopen
        cases hopen
      · rw [if_neg hreset]
        exact Keeps.unchanged hholds hat rfl hfollows (fun h => absurd h hbare.1) (hbare.2 _)
  | _ => cases hblock

theorem knows_resetPending (handle : TimedHandle) {state : FenceWaiterState}
    (hstate : next.waiters handle.waiter = state) (status : Status) :
    Knows binding next (.resetPending handle (outcomeBefore state handle.deadline status)) := by
  subst hstate
  unfold outcomeBefore
  cases hresult : terminalResultBefore (next.waiters handle.waiter) handle.deadline with
  | none => exact trivial
  | some result => exact hresult

/-- The caller that waits makes its waiter terminal. -/
theorem Keeps.ends {handle : TimedHandle} {state : FenceWaiterState}
    (hholds : Holds binding shared) (hat : At binding shared task) (hnone : task.holds = none)
    (hname : handle.toFenceHandle ∈ task.names) (hfollows : Follows task task')
    (hopen : (shared.waiters handle.waiter).terminal = false) (hterminal : state.terminal = true)
    (hreserved : state.reserved = (shared.waiters handle.waiter).reserved)
    (hfinal : state.completedAt.isSome = true →
      state.result = some (disconnectedResult binding handle.throughSequence) ∨
        (shared.waiters handle.waiter).completedAt.isSome = true)
    (hlane : task'.lane = false)
    (hknows : Knows binding (shared.setWaiter handle.waiter state) task') :
    Keeps binding shared (shared.setWaiter handle.waiter state) task task' := by
  have hissued := hat.issued _ hname
  have hunreserved : binding.target = .buffer → ∀ other, task'.awaits = some other →
      ((shared.setWaiter handle.waiter state).waiters other.waiter).reserved = false :=
    fun htarget other hother => (reserved_setWaiter hreserved _).trans
      (hat.unreserved htarget other (hfollows.awaits other hother) hnone)
  have hnolane : task'.lane ≠ true := by simp [hlane]
  refine ⟨?_, ?_, effect_ends hopen hterminal hreserved,
    hfollows.claims fun h => absurd h hnolane⟩
  · refine hholds.setWaiter hissued (fun _ => hterminal) (fun hcompleted => ⟨hterminal, ?_⟩)
      fun htarget hmem => hreserved.trans (hholds.unwaited htarget _ hmem)
    rcases hfinal hcompleted with hresult | hbefore
    · exact ⟨_, hresult, .inl rfl⟩
    · exact absurd (hholds.final_of_issued hissued hbefore).1 (by simp [hopen])
  · exact hat.follow hfollows (List.prefix_refl _) (List.Subset.refl _)
      (fun h => absurd h hnolane) hunreserved hknows

/-- Tokens tell the issued handles apart. -/
theorem Holds.eq_of_token {handle other : FenceHandle} (hholds : Holds binding shared)
    (hhandle : Issued shared handle) (hother : Issued shared other)
    (htoken : handle.token = other.token) : handle = other :=
  List.inj_on_of_nodup_map hholds.tokens (List.mem_of_getElem? hhandle)
    (List.mem_of_getElem? hother) htoken

theorem keeps_waitBlock {choice : Choice} (hholds : Holds binding shared)
    (hat : At binding shared task)
    (hblock : waitBlock binding shared choice task = some (next, task')) :
    Keeps binding shared next task task' := by
  cases task with
  | wait handle =>
      simp only [waitBlock] at hblock
      split at hblock
      · obtain ⟨rfl, rfl⟩ := Prod.mk.inj (Option.some.inj hblock)
        rename_i result hresult
        exact Keeps.silent hholds hat rfl ⟨rfl, rfl, fun _ h => h, List.Subset.refl _,
          List.Subset.refl _, List.subset_append_left _ _, List.Subset.refl _, fun _ h => .inl h⟩
          (fun _ _ _ hpending _ => hpending) ⟨fun _ h => h, rfl, rfl, fun _ h => h⟩ .inl
          (fun h => nomatch h) hresult
      · obtain ⟨rfl, rfl⟩ := Prod.mk.inj (Option.some.inj hblock)
        exact Keeps.unchanged hholds hat rfl ⟨fun _ h => h, rfl, rfl, fun _ h => h⟩
          (fun h => nomatch h) trivial
  | waitAdmission handle =>
      obtain ⟨rfl, rfl⟩ := Prod.mk.inj (Option.some.inj hblock)
      split_ifs
      all_goals
        exact Keeps.unchanged hholds hat rfl ⟨fun _ h => h, rfl, rfl, fun _ h => h⟩
          (fun h => nomatch h) trivial
  | waitRefused handle =>
      have hname : handle.toFenceHandle ∈ (Task.waitRefused handle).names :=
        List.mem_singleton.mpr rfl
      simp only [waitBlock] at hblock
      split_ifs at hblock with hterminal hbefore
      · obtain ⟨rfl, rfl⟩ := Prod.mk.inj (Option.some.inj hblock)
        exact Keeps.unchanged hholds hat rfl ⟨fun _ h => h, rfl, rfl, fun _ h => h⟩
          (fun h => nomatch h) (knows_resetPending handle rfl _)
      · obtain ⟨rfl, rfl⟩ := Prod.mk.inj (Option.some.inj hblock)
        have hopen : (shared.waiters handle.waiter).terminal = false := by simpa using hterminal
        refine Keeps.ends hholds hat rfl hname ⟨fun _ h => h, rfl, rfl, fun _ h => h⟩ hopen rfl
          (by rfl) (fun _ => .inl rfl) rfl ?_
        simp [Knows, Shared.setWaiter, terminalResultBefore, hbefore]
      · obtain ⟨rfl, rfl⟩ := Prod.mk.inj (Option.some.inj hblock)
        have hopen : (shared.waiters handle.waiter).terminal = false := by simpa using hterminal
        exact Keeps.ends hholds hat rfl hname ⟨fun _ h => h, rfl, rfl, fun _ h => h⟩ hopen rfl
          (by rfl) .inr rfl trivial
  | waitSample handle =>
      obtain ⟨rfl, rfl⟩ := Prod.mk.inj (Option.some.inj hblock)
      split_ifs
      all_goals
        exact Keeps.unchanged hholds hat rfl ⟨fun _ h => h, rfl, rfl, fun _ h => h⟩
          (fun h => nomatch h) trivial
  | waitTarget handle =>
      cases htarget : binding.target with
      | cache =>
          simp only [waitBlock, htarget] at hblock
          obtain ⟨rfl, rfl⟩ := Prod.mk.inj (Option.some.inj hblock)
          exact Keeps.unchanged hholds hat rfl ⟨fun _ h => h, rfl, rfl, fun _ h => h⟩
            (fun h => nomatch h) trivial
      | buffer =>
          simp only [waitBlock, htarget] at hblock
          split at hblock
          · obtain ⟨rfl, rfl⟩ := Prod.mk.inj (Option.some.inj hblock)
            exact Keeps.unchanged hholds hat rfl ⟨fun _ h => h, rfl, rfl, fun _ h => h⟩
              (fun h => nomatch h) trivial
          · obtain ⟨rfl, rfl⟩ := Prod.mk.inj (Option.some.inj hblock)
            exact Keeps.unchanged hholds hat rfl ⟨fun _ h => h, rfl, rfl, fun _ h => h⟩
              (fun h => nomatch h) htarget
  | blocked handle =>
      simp only [waitBlock] at hblock
      split_ifs at hblock with hterminal hlate
      · obtain ⟨rfl, rfl⟩ := Prod.mk.inj (Option.some.inj hblock)
        exact Keeps.unchanged hholds hat rfl ⟨fun _ h => h, rfl, rfl, fun _ h => h⟩
          (fun h => nomatch h) (knows_resetPending handle rfl _)
      · obtain ⟨rfl, rfl⟩ := Prod.mk.inj (Option.some.inj hblock)
        have hopen : (shared.waiters handle.waiter).terminal = false := by simpa using hterminal
        refine Keeps.ends hholds hat rfl (List.mem_singleton.mpr rfl)
          ⟨fun _ h => h, rfl, rfl, fun _ h => h⟩ hopen rfl (by rfl) .inr rfl ?_
        exact knows_resetPending handle (by simp [Shared.setWaiter]) _
  | poll handle =>
      simp only [waitBlock] at hblock
      split at hblock
      · obtain ⟨rfl, rfl⟩ := Prod.mk.inj (Option.some.inj hblock)
        rename_i result hresult
        exact Keeps.unchanged hholds hat rfl ⟨fun _ h => h, rfl, rfl, fun _ h => h⟩
          (fun h => nomatch h) (terminal_of_terminalResultBefore hresult)
      · obtain ⟨rfl, rfl⟩ := Prod.mk.inj (Option.some.inj hblock)
        exact Keeps.unchanged hholds hat rfl ⟨fun _ h => h, rfl, rfl, fun _ h => h⟩
          (fun h => nomatch h) hat.knows
  | pollClock handle =>
      obtain ⟨rfl, rfl⟩ := Prod.mk.inj (Option.some.inj hblock)
      split_ifs
      · exact Keeps.unchanged hholds hat rfl ⟨fun _ h => h, rfl, rfl, fun _ h => h⟩
          (fun h => nomatch h) trivial
      · exact Keeps.unchanged hholds hat rfl ⟨fun _ h => h, rfl, rfl, fun _ h => h⟩
          (fun h => nomatch h) ⟨hat.knows, fun h => nomatch h⟩
  | query handle observed malformed =>
      simp only [waitBlock] at hblock
      split at hblock
      · obtain ⟨rfl, rfl⟩ := Prod.mk.inj (Option.some.inj hblock)
        exact Keeps.unchanged hholds hat rfl ⟨fun _ h => h, rfl, rfl, fun _ h => h⟩
          (fun h => nomatch h) hat.knows
      · obtain ⟨rfl, rfl⟩ := Prod.mk.inj (Option.some.inj hblock)
        exact Keeps.unchanged hholds hat rfl ⟨fun _ h => h, rfl, rfl, fun _ h => h⟩
          (fun h => nomatch h) hat.knows
      · obtain ⟨rfl, rfl⟩ := Prod.mk.inj (Option.some.inj hblock)
        exact Keeps.silent hholds hat rfl ⟨rfl, rfl, fun _ h => h, List.subset_append_left _ _,
          List.Subset.refl _, List.Subset.refl _, List.Subset.refl _, fun _ h => .inl h⟩
          (fun _ _ _ hpending _ => hpending) ⟨fun _ h => h, rfl, rfl, fun _ h => h⟩ .inl
          (fun h => nomatch h)
          ⟨List.mem_append_right _ (List.mem_singleton.mpr rfl), hat.knows.1, rfl⟩
  | queried handle observed malformed =>
      simp only [waitBlock] at hblock
      split at hblock
      · obtain ⟨rfl, rfl⟩ := Prod.mk.inj (Option.some.inj hblock)
        rename_i result hresult
        exact Keeps.unchanged hholds hat rfl ⟨fun _ h => h, rfl, rfl, fun _ h => h⟩
          (fun h => nomatch h) (terminal_of_terminalResultBefore hresult)
      · split_ifs at hblock
        · obtain ⟨rfl, rfl⟩ := Prod.mk.inj (Option.some.inj hblock)
          exact Keeps.unchanged hholds hat rfl ⟨fun _ h => h, rfl, rfl, fun _ h => h⟩
            (fun h => nomatch h) trivial
        · cases observed with
          | some result =>
              obtain ⟨rfl, rfl⟩ := Prod.mk.inj (Option.some.inj hblock)
              exact Keeps.unchanged hholds hat rfl ⟨fun _ h => h, rfl, rfl, fun _ h => h⟩
                (fun h => nomatch h) (hat.knows.2 rfl)
          | none =>
              obtain ⟨rfl, rfl⟩ := Prod.mk.inj (Option.some.inj hblock)
              exact Keeps.unchanged hholds hat rfl ⟨fun _ h => h, rfl, rfl, fun _ h => h⟩
                (fun h => nomatch h) hat.knows.1
  | pollPause handle =>
      obtain ⟨rfl, rfl⟩ := Prod.mk.inj (Option.some.inj hblock)
      split_ifs
      · exact Keeps.unchanged hholds hat rfl ⟨fun _ h => h, rfl, rfl, fun _ h => h⟩
          (fun h => nomatch h) trivial
      · exact Keeps.unchanged hholds hat rfl ⟨fun _ h => h, rfl, rfl, fun _ h => h⟩
          (fun h => nomatch h) hat.knows
  | settle handle outcome =>
      cases outcome with
      | error status =>
          obtain ⟨rfl, rfl⟩ := Prod.mk.inj (Option.some.inj hblock)
          exact Keeps.unchanged hholds hat rfl ⟨fun _ h => h, rfl, rfl, fun _ h => h⟩
            (fun h => nomatch h) (knows_resetPending handle rfl _)
      | ok result =>
          -- a poller has found its waiter terminal or made it so
          have hterminal : (shared.waiters handle.waiter).terminal = true := hat.knows
          simp only [waitBlock, hterminal, if_true] at hblock
          obtain ⟨rfl, rfl⟩ := Prod.mk.inj (Option.some.inj hblock)
          exact Keeps.unchanged hholds hat rfl ⟨fun _ h => h, rfl, rfl, fun _ h => h⟩
            (fun h => nomatch h) (knows_resetPending handle rfl _)
  | resetPending handle outcome =>
      have hissued : Issued shared handle.toFenceHandle :=
        hat.issued _ (List.mem_singleton.mpr rfl)
      have hknows : ∀ other : Shared, other.waiters = shared.waiters →
          Knows binding other (.waited handle outcome) := by
        intro other hwaiters
        cases outcome with
        | error status => exact trivial
        | ok result =>
            have hresult := hat.knows
            unfold Knows at hresult ⊢
            rw [hwaiters]
            exact hresult
      simp only [waitBlock] at hblock
      split_ifs at hblock with hreset
      · obtain ⟨rfl, rfl⟩ := Prod.mk.inj (Option.some.inj hblock)
        refine Keeps.silent hholds hat rfl ⟨rfl, rfl, fun _ h => (nomatch h), List.Subset.refl _,
          List.Subset.refl _, List.subset_append_left _ _, List.Subset.refl _, fun _ h => .inl h⟩ ?_
          ⟨fun _ h => h, rfl, rfl, fun _ h => h⟩ .inl (fun h => nomatch h) (hknows _ rfl)
        intro waiter pending hunfinished hpending hwaiter
        simp only [hpending, Option.any_some, beq_iff_eq] at hreset
        have hsame := hholds.eq_of_token (hholds.pending pending hpending) hissued hreset
        have hmem : waiter ∈ shared.returned ++ [handle.waiter] := by
          rw [← hwaiter, hsame]
          exact List.mem_append_right _ (List.mem_singleton.mpr rfl)
        exact absurd hmem hunfinished.2.2.1
      · obtain ⟨rfl, rfl⟩ := Prod.mk.inj (Option.some.inj hblock)
        exact Keeps.silent hholds hat rfl ⟨rfl, rfl, fun _ h => h, List.Subset.refl _,
          List.Subset.refl _, List.subset_append_left _ _, List.Subset.refl _, fun _ h => .inl h⟩
          (fun _ _ _ hpending _ => hpending) ⟨fun _ h => h, rfl, rfl, fun _ h => h⟩ .inl
          (fun h => nomatch h) (hknows _ rfl)
  | _ => cases hblock

theorem keeps_block {choice : Choice} (hholds : Holds binding shared) (hat : At binding shared task)
    (hblock : block binding shared choice task = some (next, task')) :
    Keeps binding shared next task task' := by
  simp only [block, Option.orElse_eq_orElse, Option.orElse_eq_or, Option.or_eq_some_iff] at hblock
  rcases hblock with hsubmit | ⟨-, hbegin | ⟨-, hclose | ⟨-, hpublish | ⟨-, hwait⟩⟩⟩⟩
  · exact keeps_submitBlock hholds hat hsubmit
  · exact keeps_beginBlock hholds hat hbegin
  · exact keeps_closeBlock hholds hat hclose
  · exact keeps_publishBlock hholds hat hpublish
  · exact keeps_waitBlock hholds hat hwait

theorem keeps_enter {call : Call} (hholds : Holds binding shared) (hat : At binding shared .idle)
    (henter : enter binding shared call = some (next, task')) :
    Keeps binding shared next .idle task' := by
  cases call with
  | submitData =>
      obtain ⟨rfl, rfl⟩ := Prod.mk.inj (Option.some.inj henter)
      exact Keeps.unchanged hholds hat rfl (.of_bare rfl rfl rfl rfl) (fun h => nomatch h) trivial
  | beginFence budget =>
      obtain ⟨rfl, rfl⟩ := Prod.mk.inj (Option.some.inj henter)
      exact Keeps.unchanged hholds hat rfl (.of_bare rfl rfl rfl rfl) (fun h => nomatch h) trivial
  | close =>
      obtain ⟨rfl, rfl⟩ := Prod.mk.inj (Option.some.inj henter)
      exact Keeps.unchanged hholds hat rfl (.of_bare rfl rfl rfl rfl) (fun h => nomatch h) trivial
  | complete token result =>
      simp only [enter] at henter
      split_ifs at henter with htarget
      obtain ⟨rfl, rfl⟩ := Prod.mk.inj (Option.some.inj henter)
      exact Keeps.silent hholds hat rfl ⟨rfl, rfl, fun _ h => h, List.subset_append_left _ _,
        List.Subset.refl _, List.Subset.refl _, List.Subset.refl _, fun _ h => .inl h⟩
        (fun _ _ _ hpending _ => hpending) (.of_bare rfl rfl rfl rfl) .inl (fun h => nomatch h)
        ⟨htarget, List.mem_append_right _ (List.mem_singleton.mpr rfl)⟩
  | wait handle =>
      simp only [enter] at henter
      split_ifs at henter with hfirst
      obtain ⟨rfl, rfl⟩ := Prod.mk.inj (Option.some.inj henter)
      obtain ⟨hhanded, hunwaited⟩ := hfirst
      have hsilent : Silent shared { shared with waited := shared.waited ++ [handle.waiter] } :=
        ⟨rfl, rfl, fun _ h => h, List.Subset.refl _, List.subset_append_left _ _,
          List.Subset.refl _, List.Subset.refl _, fun _ h => .inl h⟩
      refine ⟨hholds.silent hsilent fun _ _ _ hpending _ => hpending, ⟨?_, fun h => (nomatch h),
        fun h => (nomatch h), fun _ _ _ h => (nomatch h), ?_, ?_, trivial⟩, hsilent.effect .inl,
        ⟨fun h => (nomatch h), fun _ h => (nomatch h), ?_⟩⟩
      · intro other hmem
        rw [List.mem_singleton.mp hmem]
        exact hholds.handed handle hhanded
      · intro other hother
        obtain rfl := Option.some.inj hother
        exact List.mem_append_right _ (List.mem_singleton.mpr rfl)
      · intro htarget other hother _
        obtain rfl := Option.some.inj hother
        exact hholds.unwaited htarget _ hunwaited
      · intro other hother
        obtain rfl := Option.some.inj hother
        exact .inr hunwaited

end Blocks

/-! ## Runs -/

section Runs

variable {binding : FencePublisherBinding} {state next : State} {action : Action}

def Inv (binding : FencePublisherBinding) : State → Prop :=
  Invariant (Holds binding) (At binding) Compatible

theorem inv_start (binding : FencePublisherBinding) : Inv binding (start binding) where
  shared := by
    refine ⟨fun _ _ h => ?_, List.nodup_nil, fun _ _ => rfl, fun _ h => (nomatch h), ?_,
      fun _ h => (nomatch h), ?_, fun _ _ _ => rfl⟩
    · simp [start] at h
    · simp [start]
    · rintro waiter ⟨hlt, -⟩
      simp [start] at hlt
  task _ :=
    .of_sender rfl rfl (fun _ h => nomatch h) (fun h => nomatch h) (fun h => nomatch h) trivial
  compatible _ _ _ :=
    ⟨fun h => (nomatch h.1), fun _ _ h => (nomatch h), fun _ _ h => (nomatch h)⟩

/-- One action is a block of one caller, or moves the clock or the transport. -/
theorem keeps_step (hinv : Inv binding state) (hstep : step binding state action = some next) :
    (∃ task shared task', next = state.replace task shared task' ∧
      Keeps binding state.shared shared (state.tasks task) task') ∨
    (Same state.shared next.shared ∧ next.shared.lane = state.shared.lane ∧
      next.tasks = state.tasks) := by
  cases action with
  | advance now =>
      simp only [step] at hstep
      split_ifs at hstep
      obtain rfl := Option.some.inj hstep
      exact .inr ⟨⟨rfl, rfl, rfl, rfl, rfl, rfl, rfl, rfl⟩, rfl, rfl⟩
  | replaceGeneration generation =>
      obtain rfl := Option.some.inj hstep
      exact .inr ⟨⟨rfl, rfl, rfl, rfl, rfl, rfl, rfl, rfl⟩, rfl, rfl⟩
  | call task call =>
      simp only [step] at hstep
      split at hstep
      · rename_i hidle
        obtain ⟨⟨shared, task'⟩, henter, rfl⟩ := Option.map_eq_some_iff.mp hstep
        have hat := hinv.task task
        rw [hidle] at hat
        refine .inl ⟨task, shared, task', rfl, ?_⟩
        rw [hidle]
        exact keeps_enter hinv.shared hat henter
      · cases hstep
  | block task choice =>
      obtain ⟨⟨shared, task'⟩, hblock, rfl⟩ := Option.map_eq_some_iff.mp hstep
      exact .inl ⟨task, shared, task', rfl, keeps_block hinv.shared (hinv.task task) hblock⟩

theorem At.same {shared shared' : Shared} {task : Task} (hat : At binding shared task)
    (hsame : Same shared shared') (hlane : shared'.lane = shared.lane) :
    At binding shared' task where
  issued handle hmem := (hat.issued handle hmem).mono (by rw [hsame.issued])
  lane hheld := hlane.trans (hat.lane hheld)
  vacant hregisters := hsame.pending.trans (hat.vacant hregisters)
  held := by
    rw [hsame.waiters]
    exact hat.held
  awaited := by
    rw [hsame.waited]
    exact hat.awaited
  unreserved := by
    rw [hsame.waiters]
    exact hat.unreserved
  knows := hat.knows.mono hsame.silent.offered fun waiter _ => by rw [Frozen, hsame.waiters]

theorem inv_step (hinv : Inv binding state) (hstep : step binding state action = some next) :
    Inv binding next := by
  rcases keeps_step hinv hstep with ⟨task, shared, task', rfl, hkeeps⟩ | ⟨hsame, hlane, htasks⟩
  · exact hinv.replace (fun _ _ => Compatible.symm) hkeeps.holds hkeeps.stands
      (undisturbed hkeeps.effect hkeeps.claims)
  · refine ⟨hinv.shared.silent hsame.silent ?_, fun task => ?_, ?_⟩
    · intro _ _ _ hpending _
      rw [hsame.pending]
      exact hpending
    · rw [htasks]
      exact (hinv.task task).same hsame hlane
    · rw [htasks]
      exact hinv.compatible

theorem inv_run {actions : List Action} (hrun : run (step binding) (start binding) actions = some state) :
    Inv binding state :=
  run_invariant (fun _ _ _ hinv hstep => inv_step hinv hstep) (inv_start binding) hrun

theorem frozen_step (hinv : Inv binding state) (hstep : step binding state action = some next)
    {waiter : ℕ} (hterminal : (state.shared.waiters waiter).terminal = true) :
    Frozen state.shared next.shared waiter := by
  rcases keeps_step hinv hstep with ⟨task, shared, task', rfl, hkeeps⟩ | ⟨hsame, -, -⟩
  · exact hkeeps.effect.frozen waiter hterminal
  · rw [Frozen, hsame.waiters]

/-- A terminal waiter since some state. -/
structure Stays (binding : FencePublisherBinding) (state : State) (waiter : ℕ) (later : State) :
    Prop where
  inv : Inv binding later
  terminal : (later.shared.waiters waiter).terminal = true
  frozen : Frozen state.shared later.shared waiter

theorem Stays.step {waiter : ℕ} {middle : State} (hstays : Stays binding state waiter middle)
    (hstep : step binding middle action = some next) : Stays binding state waiter next := by
  have hnext := frozen_step hstays.inv hstep hstays.terminal
  refine ⟨inv_step hstays.inv hstep, hnext.terminal hstays.terminal, ?_⟩
  rw [Frozen, hnext, hstays.frozen]

/-- A terminal waiter keeps everything but its reservation. -/
theorem frozen_run {later : State} {more : List Action} (hinv : Inv binding state)
    (hrun : run (step binding) state more = some later) {waiter : ℕ}
    (hterminal : (state.shared.waiters waiter).terminal = true) :
    Frozen state.shared later.shared waiter := by
  have hstart : Stays binding state waiter state := ⟨hinv, hterminal, rfl⟩
  have hstays : Stays binding state waiter later :=
    run_invariant (fun _ _ _ hstays hstep => Stays.step hstays hstep) hstart hrun
  exact hstays.frozen

/-- What a wait returned: a final result, in time, that is the publisher's own or was offered for
the handle and validated on the bound generation. -/
structure Returned (binding : FencePublisherBinding) (shared : Shared) (handle : TimedHandle)
    (result : AckResultV1) : Prop where
  terminal : (shared.waiters handle.waiter).terminal = true
  final : (shared.waiters handle.waiter).result = some result
  inTime : ∃ instant < handle.deadline, (shared.waiters handle.waiter).completedAt = some instant
  backed : result = disconnectedResult binding handle.throughSequence ∨
    ((handle.token, result) ∈ shared.offered ∧
      (shared.waiters handle.waiter).finalSample = some binding.transportGeneration)

theorem Holds.returned {shared : Shared} {handle : TimedHandle} {result : AckResultV1}
    (hholds : Holds binding shared) (hissued : Issued shared handle.toFenceHandle)
    (hresult : terminalResultBefore (shared.waiters handle.waiter) handle.deadline = some result) :
    Returned binding shared handle result := by
  unfold terminalResultBefore at hresult
  split_ifs at hresult with hbefore
  obtain ⟨hterminal, hinstant⟩ := hbefore
  cases hcompleted : (shared.waiters handle.waiter).completedAt with
  | none => simp [hcompleted] at hinstant
  | some instant =>
      obtain ⟨-, final, hfinal, hbacked⟩ := hholds.final_of_issued hissued (by simp [hcompleted])
      obtain rfl := Option.some.inj (hresult.symm.trans hfinal)
      have hlt : instant < handle.deadline := by simpa [hcompleted] using hinstant
      exact ⟨hterminal, hresult, ⟨instant, hlt, hcompleted⟩, hbacked⟩

/-- In every run, a terminal waiter never changes again; what a wait returned is final, and a
success among it was offered for the handle, validated on the bound generation and in time; a
registration is never replaced, and at most one Fence is unfinished. -/
theorem waiter_single_assignment (binding : FencePublisherBinding) (actions : List Action)
    (state : State) (hrun : run (step binding) (start binding) actions = some state) :
    (∀ more later, run (step binding) state more = some later → ∀ waiter,
      (state.shared.waiters waiter).terminal = true → Frozen state.shared later.shared waiter) ∧
    (∀ task handle result, state.tasks task = .waited handle (.ok result) →
      Returned binding state.shared handle result ∧
      (result.status = .ok → (handle.token, result) ∈ state.shared.offered ∧
        (state.shared.waiters handle.waiter).finalSample = some binding.transportGeneration)) ∧
    (∀ action next handle other, step binding state action = some next →
      state.shared.pending = some handle → next.shared.pending = some other → other = handle) ∧
    (∀ first second, Unfinished state.shared first → Unfinished state.shared second →
      first = second) := by
  have hinv := inv_run hrun
  refine ⟨fun more later hmore waiter => frozen_run hinv hmore, ?_, ?_, ?_⟩
  · intro task handle result hwaited
    have hat := hinv.task task
    rw [hwaited] at hat
    have hreturned := hinv.shared.returned (hat.issued _ (List.mem_singleton.mpr rfl)) hat.knows
    refine ⟨hreturned, fun hok => hreturned.backed.resolve_left ?_⟩
    rintro rfl
    simp [disconnectedResult, fenceResult] at hok
  · intro action next handle other hstep hpending hnext
    rcases keeps_step hinv hstep with ⟨task, shared, task', rfl, hkeeps⟩ | ⟨hsame, -, -⟩
    · exact hkeeps.effect.single handle other hpending hnext
    · rw [hsame.pending, hpending] at hnext
      exact (Option.some.inj hnext).symm
  · intro first second hfirst hsecond
    obtain ⟨handle, hpending, rfl⟩ := hinv.shared.alone first hfirst
    obtain ⟨other, hother, rfl⟩ := hinv.shared.alone second hsecond
    rw [Option.some.inj (hpending.symm.trans hother)]

end Runs

/-- A cache begins a Fence, its marker is completed before the wait for it begins, and the wait
returns the success. -/
theorem waiter_single_assignment_completed :
    ∃ (binding : FencePublisherBinding) (state : State) (handle : TimedHandle)
      (result : AckResultV1), state.tasks 2 = .waited handle (.ok result) ∧
      result.status = .ok ∧ (handle.token, result) ∈ state.shared.offered ∧
      (state.shared.waiters handle.waiter).finalSample = some binding.transportGeneration := by
  let uuid : AckToken := generateAckToken ⟨List.replicate 16 7, by decide⟩
  let binding : FencePublisherBinding :=
    { target := .cache, keyPrefix := ascii "p", sid := ascii "s", receiverGeneration := uuid,
      publisherUuid := uuid, bufferClass := none, durability := .applied, syncedAllowed := false,
      transportGeneration := 1 }
  let choice : Choice :=
    { missed := false, supported := true, putStatus := .ok, random := uuid, reply := none }
  let handle : TimedHandle := ⟨⟨uuid, 0, 0⟩, 5000000⟩
  let result : AckResultV1 := fenceResult .ok .applied 0
  let actions : List Action :=
    .call 0 (.beginFence 5) :: List.replicate 6 (.block 0 choice) ++
      .call 1 (.complete uuid result) :: List.replicate 5 (.block 1 choice) ++
      [.call 2 (.wait handle), .block 2 choice]
  have hends : (run (step binding) (start binding) actions).any (fun state =>
      match state.tasks 2 with
      | .waited waited (.ok returned) => decide (waited = handle ∧ returned = result)
      | _ => false) = true := by
    decide +kernel
  obtain ⟨state, hrun, hreturned⟩ := (Option.any_eq_true _ _).mp hends
  have hwaited : state.tasks 2 = .waited handle (.ok result) := by
    split at hreturned
    · rename_i waited returned hwaited
      obtain ⟨rfl, rfl⟩ := of_decide_eq_true hreturned
      exact hwaited
    · cases hreturned
  obtain ⟨-, hreturn, -⟩ := waiter_single_assignment binding actions state hrun
  obtain ⟨hoffered, hsample⟩ := (hreturn 2 handle result hwaited).2 rfl
  exact ⟨binding, state, handle, result, hwaited, rfl, hoffered, hsample⟩

end Sitos.Waiter
