import Mathlib.Data.List.Induction
import Mathlib.Data.List.Nodup
import TcpServer.Transition

/-!
# Custody of resources

A resource is acquired once, may change hands any number of times, and is in the end
released to the outside or closed. A ledger of such events determines the status
of every resource. It is legal when only fresh resources are acquired, and only
held ones are moved, released or closed.

A legal ledger closes no resource twice and gives each resource one status, so
that being held, released and closed exclude each other.
-/

namespace Custody

open Transition

universe u v
variable {Resource : Type u} {Holder : Type v}

/-- What has become of a resource: nobody has had it, somebody holds it, it was given
away, or it was closed. The last two are final. -/
inductive Status (Holder : Type v) where
  | fresh
  | held (holder : Holder)
  | released
  | closed
deriving DecidableEq, Repr

/-- What can happen to a resource: it is acquired, handed from one holder to another,
given away, or closed. -/
inductive Event (Resource : Type u) (Holder : Type v) where
  | acquired (resource : Resource) (holder : Holder)
  | moved (resource : Resource) (holder : Holder)
  | released (resource : Resource)
  | closed (resource : Resource)
deriving DecidableEq, Repr

/-- The resource of an event. Every event is about exactly one. -/
def Event.resource : Event Resource Holder → Resource
  | .acquired resource _ | .moved resource _ | .released resource | .closed resource => resource

/-- The status in which an event leaves its resource, whatever it was before. -/
def Event.status : Event Resource Holder → Status Holder
  | .acquired _ holder | .moved _ holder => .held holder
  | .released _ => .released
  | .closed _ => .closed

/-- The event ends the custody of its resource: it is handed to the program, or it is
closed. -/
def Event.ends : Event Resource Holder → Bool
  | .released _ | .closed _ => true
  | .acquired .. | .moved .. => false

/-- The resource that an event closes. Handing one over closes nothing. -/
def Event.closes : Event Resource Holder → Option Resource
  | .closed resource => some resource
  | .acquired .. | .moved .. | .released _ => none

variable [DecidableEq Resource]

/-- The status of a resource behind a ledger: what its last event left, or fresh if
there is none. -/
def custody (ledger : List (Event Resource Holder)) (resource : Resource) : Status Holder :=
  ledger.foldl (fun status event => if event.resource = resource then event.status else status)
    .fresh

/-- What must precede an event: only a fresh resource is acquired, and only a held one
is moved, released or closed. -/
def Legal (earlier : List (Event Resource Holder)) : Event Resource Holder → Prop
  | .acquired resource _ => custody earlier resource = .fresh
  | .moved resource _ | .released resource | .closed resource =>
      ∃ holder, custody earlier resource = .held holder

variable {ledger : List (Event Resource Holder)} {event : Event Resource Holder}
  {resource : Resource}

/-- Before the first event nothing is held: every resource is fresh. -/
theorem custody_nil (resource : Resource) :
    custody ([] : List (Event Resource Holder)) resource = .fresh := rfl

/-- One more event settles the status of its own resource and of no other. -/
theorem custody_concat (ledger : List (Event Resource Holder))
    (event : Event Resource Holder) (resource : Resource) :
    custody (ledger ++ [event]) resource =
      if event.resource = resource then event.status else custody ledger resource := by
  simp [custody, List.foldl_append]

/-- The last event settles the status of its own resource, whatever happened to that
resource before. -/
theorem custody_concat_self (ledger : List (Event Resource Holder))
    (event : Event Resource Holder) :
    custody (ledger ++ [event]) event.resource = event.status := by
  rw [custody_concat, if_pos rfl]

/-- The last event leaves the status of any other resource as it was, so a ledger can
be followed one resource at a time. -/
theorem custody_concat_ne (ledger : List (Event Resource Holder))
    (event : Event Resource Holder) (other : event.resource ≠ resource) :
    custody (ledger ++ [event]) resource = custody ledger resource := by
  rw [custody_concat, if_neg other]

/-- Before a legal event the custody of its resource has not ended, neither by a
release nor by a close. -/
theorem legal_unended (legal : Legal ledger event) (other : Event Resource Holder)
    (ends : other.ends = true) : custody ledger event.resource ≠ other.status := by
  intro same
  cases other with
  | acquired | moved => cases ends
  | released | closed =>
    cases event with
    | acquired resource holder =>
      have fresh : custody ledger resource = .fresh := legal
      simp [Event.resource, Event.status, fresh] at same
    | moved | released | closed =>
      obtain ⟨holder, held⟩ := legal
      simp [Event.resource, Event.status, held] at same

/-- Custody that has ended stays ended: the status behind a legal ledger is that of
an ending event exactly when the event stands in the ledger. -/
theorem custody_ended_iff (legal : Justified Legal ledger) (event : Event Resource Holder)
    (ends : event.ends = true) :
    custody ledger event.resource = event.status ↔ event ∈ ledger := by
  induction ledger using List.reverseRecOn with
  | nil => cases event <;> simp_all [custody_nil, Event.ends, Event.status]
  | append_singleton ledger last inductionHypothesis =>
    obtain ⟨before, permitted⟩ := justified_of_concat legal
    have earlier := inductionHypothesis before
    rw [custody_concat, List.mem_append, List.mem_singleton]
    by_cases same : last.resource = event.resource
    · have unended := legal_unended permitted event ends
      rw [same] at unended
      rw [if_pos same, ← earlier]
      simp only [unended, false_or]
      cases event <;> cases last <;> simp_all [Event.ends, Event.status, Event.resource]
    · have different : event ≠ last := fun equal => same (congrArg Event.resource equal.symm)
      rw [if_neg same, earlier]
      simp only [different, or_false]

/-- A legal ledger closes no resource twice. Proof: by induction from the back, since
a close leaves a status that forbids the next. -/
theorem closes_nodup (legal : Justified Legal ledger) : (ledger.filterMap Event.closes).Nodup := by
  induction ledger using List.reverseRecOn with
  | nil => exact List.nodup_nil
  | append_singleton ledger last inductionHypothesis =>
    obtain ⟨before, permitted⟩ := justified_of_concat legal
    have earlier := inductionHypothesis before
    rw [List.filterMap_append]
    cases last with
    | acquired | moved | released =>
      change (ledger.filterMap Event.closes ++ []).Nodup
      rwa [List.append_nil]
    | closed resource =>
      have unended := legal_unended permitted (.closed resource) rfl
      have absent : .closed resource ∉ ledger := fun present =>
        unended ((custody_ended_iff before (.closed resource) rfl).mpr present)
      have unclosed : resource ∉ ledger.filterMap Event.closes := by
        intro member
        obtain ⟨event, present, closes⟩ := List.mem_filterMap.mp member
        cases event with
        | acquired | moved | released => cases closes
        | closed other =>
          obtain rfl := Option.some.inj closes
          exact absent present
      have last : ([.closed resource] : List (Event Resource Holder)).filterMap Event.closes =
          [resource] := rfl
      rw [last, ← List.concat_eq_append]
      exact List.Nodup.concat unclosed earlier

end Custody
