import Eggchaos.Lib.Accounts
import Eggchaos.Lib.Runs
/-!
# Association capacity

Who holds the capacity of a datagram proxy, and the two counters that say how
much is taken. `resolve_association`, `publish_association` with its
`SetupOwnerGuard`, `drain_associations`, `kill_association`, `reap_idle`,
`stop_association` and the cap change of `update_proxy` are one state machine over
all proxies of a runtime, whose steps are the accesses to what the tasks share.

`CapacityLease::try_acquire` and `release` are several atomic operations each. An
acquisition holds the proxy's association map and `capacity_mutation`
(`acquiring`), so nobody else touches either in between. A release takes no lock:
once its `swap` has won, the two `fetch_sub` follow at any later moment, in order.
They are steps of their own here, which allows more interleavings than the code
has.

A reservation and the association made from it share one lease, so one number
names all three. The counters are `usize`: a `fetch_sub` below zero wraps round,
which `wrapped` notes. `releases` counts the winning swaps of a lease.
-/

namespace Eggchaos
open Lib

/-- `fetch_sub(k)` on a `usize`. -/
def usizeSub (n k : Nat) : Nat := if k ≤ n then n - k else n + (u64Max + 1) - k

/-- How far `CapacityLease::release` has come. -/
inductive LeaseStage where
  | held
  /-- The `swap` has won; both counters are still raised. -/
  | swapped
  /-- The global counter is lowered. -/
  | globalReleased
  | released
deriving DecidableEq, Repr

/-- The future of `publish_association`. -/
inductive SetupPhase where
  /-- Binding, connecting or spawning, with an armed guard. -/
  | binding
  /-- The slot was not its own any more; about to abandon the reservation. -/
  | abandoning
  /-- Abandoned; waiting for the worker, the guard still armed. -/
  | joining
  /-- Dropped while somebody had the map: the transition is made, not the release. -/
  | dropping
  | over
deriving DecidableEq, Repr

/-- What becomes of an association that is out of its slot. -/
inductive LeaseEnding where
  | none
  /-- In the hands of `stop_association`. -/
  | stopping
  /-- That future was dropped too; the last reference drops the lease. -/
  | orphaned
deriving DecidableEq, Repr

structure CapacityLease where
  proxy : Nat
  client : Nat
  stage : LeaseStage
  /-- `terminal` of the reservation. -/
  terminal : Bool
  setup : SetupPhase
  ending : LeaseEnding
  releases : Nat
deriving DecidableEq, Repr

/-- `release`: only the first `swap` wins. -/
def CapacityLease.release (l : CapacityLease) : CapacityLease :=
  if l.stage = .held then { l with stage := .swapped, releases := l.releases + 1 } else l

/-- `AssociationSlot`, by the number of the reservation or association. -/
inductive CapacitySlot where
  | starting (reservation : Nat)
  | active (association : Nat)
deriving DecidableEq, Repr

/-- `try_acquire` after its first `fetch_update`: the second is next, or it has
failed and the first is taken back. -/
inductive Acquiring where
  | proxyTaken (client : Nat)
  | refused (client : Nat)
deriving DecidableEq, Repr

structure CapacityState where
  /-- `max_associations` of the runtime, and of each proxy's definition. -/
  globalLimit : Nat
  limit : Nat → Nat
  globalActive : Nat
  proxyActive : Nat → Nat
  slots : Nat → Nat → Option CapacitySlot
  acquiring : Nat → Option Acquiring
  /-- An update that holds `capacity_mutation` and has found the new cap high enough. -/
  capping : Nat → Option Nat
  leases : List CapacityLease
  /-- `max_ingress_queue_bytes`, the counter, and the live reservations' sizes. -/
  ingressLimit : Nat
  ingressBufferedBytes : Nat
  reservations : List Nat
  wrapped : Bool

inductive CapacityOp where
  -- `resolve_association`
  | resolve (proxy client : Nat)
  | acquireGlobal (proxy : Nat)
  | takeBack (proxy : Nat)
  -- `publish_association`
  | publish (lease : Nat)
  /-- The bind or connect fails, or the slot was lost. -/
  | abandon (lease : Nat)
  | joined (lease : Nat)
  /-- The future is dropped; `free` says that `try_write` gets the map. -/
  | dropOwner (lease : Nat) (free : Bool)
  | releaseDropped (lease : Nat)
  -- teardown
  | drain (proxy : Nat)
  /-- `kill_association` or `reap_idle` takes an active slot. -/
  | remove (proxy client : Nat)
  | stop (lease : Nat)
  | dropStop (lease : Nat)
  | dropLease (lease : Nat)
  -- `release` after its swap
  | subGlobal (lease : Nat)
  | subProxy (lease : Nat)
  -- `update_proxy`
  | lower (proxy cap : Nat)
  | write (proxy : Nat)
  -- `reserve_ingress`
  | reserve (bytes : Nat)
  | dropReservation (i : Nat)

namespace CapacityState

open Function (update)

/-- Nobody has the proxy's map. -/
def free (s : CapacityState) (proxy : Nat) : Bool := (s.acquiring proxy).isNone

def setSlot (s : CapacityState) (proxy client : Nat) (slot : Option CapacitySlot) : CapacityState :=
  { s with slots := update s.slots proxy (update (s.slots proxy) client slot) }

def changeLease (s : CapacityState) (r : Nat) (f : CapacityLease → CapacityLease) : CapacityState :=
  { s with leases := s.leases.modify r f }

/-- One turn of `resolve_association` up to the first `fetch_update`. -/
def resolve (s : CapacityState) (p c : Nat) : CapacityState :=
  match s.slots p c with
  | some (.active _) => s
  | some (.starting r) =>
    if s.free p && (s.leases[r]?.any (·.terminal)) then s.setSlot p c none else s
  | none =>
    if s.free p && (s.capping p).isNone && decide (s.proxyActive p + 1 ≤ s.limit p) then
      { s with
        proxyActive := update s.proxyActive p (s.proxyActive p + 1)
        acquiring := update s.acquiring p (some (.proxyTaken c)) }
    else s

/-- The second `fetch_update`. A lease that is granted is in its slot before the
map is free again. -/
def acquireGlobal (s : CapacityState) (p : Nat) : CapacityState :=
  match s.acquiring p with
  | some (.proxyTaken c) =>
    if s.globalActive + 1 ≤ s.globalLimit then
      { s with
        globalActive := s.globalActive + 1
        leases := s.leases ++ [⟨p, c, .held, false, .binding, .none, 0⟩]
        slots := update s.slots p (update (s.slots p) c (some (.starting s.leases.length)))
        acquiring := update s.acquiring p none }
    else { s with acquiring := update s.acquiring p (some (.refused c)) }
  | _ => s

def takeBack (s : CapacityState) (p : Nat) : CapacityState :=
  match s.acquiring p with
  | some (.refused _) =>
    { s with
      proxyActive := update s.proxyActive p (usizeSub (s.proxyActive p) 1)
      wrapped := s.wrapped || decide (s.proxyActive p < 1)
      acquiring := update s.acquiring p none }
  | _ => s

/-- `same_reservation_slot`. -/
def isStarting (s : CapacityState) (l : CapacityLease) (r : Nat) : Bool :=
  s.slots l.proxy l.client = some (.starting r)

/-- `abandon_starting`, which is also what the guard does when it gets the map. -/
def abandonStarting (s : CapacityState) (l : CapacityLease) (r : Nat) (setup : SetupPhase) : CapacityState :=
  let s := if s.isStarting l r then s.setSlot l.proxy l.client none else s
  s.changeLease r fun l => { l with terminal := true, setup }.release

/-- What a drain does to a lease: a starting one is abandoned, an active one goes
to `stop_association`. -/
def drainLease (s : CapacityState) (p : Nat) (r : Nat) (l : CapacityLease) : CapacityLease :=
  if l.proxy = p then
    if s.slots p l.client = some (.starting r) then { l with terminal := true }.release
    else if s.slots p l.client = some (.active r) then { l with ending := .stopping }
    else l
  else l

/-- A step on a lease that exists. -/
def onLease (s : CapacityState) (r : Nat) (f : CapacityLease → CapacityState) : CapacityState :=
  match s.leases[r]? with
  | some l => f l
  | none => s

def step (s : CapacityState) : CapacityOp → CapacityState
  | .resolve p c => s.resolve p c
  | .acquireGlobal p => s.acquireGlobal p
  | .takeBack p => s.takeBack p
  | .publish r => s.onLease r fun l =>
    if s.free l.proxy && decide (l.setup = .binding) then
      if s.isStarting l r then
        (s.setSlot l.proxy l.client (some (.active r))).changeLease r fun l => { l with terminal := true, setup := .over }
      else s.changeLease r fun l => { l with setup := .abandoning }
    else s
  | .abandon r => s.onLease r fun l =>
    if s.free l.proxy then
      match l.setup with
      | .binding => s.abandonStarting l r .over
      | .abandoning => s.abandonStarting l r .joining
      | _ => s
    else s
  | .joined r => s.onLease r fun l =>
    if l.setup = .joining then s.changeLease r fun l => { l with setup := .over } else s
  | .dropOwner r free => s.onLease r fun l =>
    match l.setup with
    | .binding | .abandoning | .joining =>
      if free then
        if s.free l.proxy then s.abandonStarting l r .over else s
      else s.changeLease r fun l => { l with terminal := true, setup := .dropping }
    | _ => s
  | .releaseDropped r => s.onLease r fun l =>
    if l.setup = .dropping then s.changeLease r fun l => { l with setup := .over }.release else s
  | .drain p =>
    if s.free p then { s with slots := update s.slots p fun _ => none, leases := s.leases.mapIdx (s.drainLease p) } else s
  | .remove p c =>
    match s.slots p c with
    | some (.active r) =>
      if s.free p then (s.setSlot p c none).changeLease r fun l => { l with ending := .stopping } else s
    | _ => s
  | .stop r => s.onLease r fun l =>
    if l.ending = .stopping then s.changeLease r fun l => { l with ending := .none }.release else s
  | .dropStop r => s.onLease r fun l =>
    if l.ending = .stopping then s.changeLease r fun l => { l with ending := .orphaned } else s
  | .dropLease r => s.onLease r fun l =>
    if l.ending = .orphaned then s.changeLease r fun l => { l with ending := .none }.release else s
  | .subGlobal r => s.onLease r fun l =>
    if l.stage = .swapped then
      { s.changeLease r fun l => { l with stage := .globalReleased } with
        globalActive := usizeSub s.globalActive 1
        wrapped := s.wrapped || decide (s.globalActive < 1) }
    else s
  | .subProxy r => s.onLease r fun l =>
    if l.stage = .globalReleased then
      { s.changeLease r fun l => { l with stage := .released } with
        proxyActive := update s.proxyActive l.proxy (usizeSub (s.proxyActive l.proxy) 1)
        wrapped := s.wrapped || decide (s.proxyActive l.proxy < 1) }
    else s
  | .lower p cap =>
    if s.free p && (s.capping p).isNone && decide (s.proxyActive p ≤ cap) then
      { s with capping := update s.capping p (some cap) }
    else s
  | .write p =>
    match s.capping p with
    | some cap => { s with limit := update s.limit p cap, capping := update s.capping p none }
    | none => s
  | .reserve bytes =>
    if s.ingressBufferedBytes + bytes ≤ s.ingressLimit then
      { s with ingressBufferedBytes := s.ingressBufferedBytes + bytes, reservations := s.reservations ++ [bytes] }
    else s
  | .dropReservation i =>
    match s.reservations[i]? with
    | some bytes =>
      { s with
        ingressBufferedBytes := usizeSub s.ingressBufferedBytes bytes
        wrapped := s.wrapped || decide (s.ingressBufferedBytes < bytes)
        reservations := s.reservations.eraseIdx i }
    | none => s

/-- A runtime whose proxies have these caps. -/
def start (globalLimit ingressLimit : Nat) (limit : Nat → Nat) : CapacityState where
  globalLimit
  limit
  globalActive := 0
  proxyActive := fun _ => 0
  slots := fun _ _ => none
  acquiring := fun _ => none
  capping := fun _ => none
  leases := []
  ingressLimit
  ingressBufferedBytes := 0
  reservations := []
  wrapped := false

/-! ## Counting leases -/

/-- Leases whose release has not begun. -/
def unreleased (s : CapacityState) : Nat := s.leases.countP (·.stage = .held)

def unreleasedOf (s : CapacityState) (p : Nat) : Nat := s.leases.countP fun l => l.proxy = p ∧ l.stage = .held

/-- Leases whose release is midway for the global counter. -/
def midway (s : CapacityState) : Nat := s.leases.countP (·.stage = .swapped)

/-- Leases whose release is midway for the proxy's counter. -/
def midwayOf (s : CapacityState) (p : Nat) : Nat :=
  s.leases.countP fun l => l.proxy = p ∧ (l.stage = .swapped ∨ l.stage = .globalReleased)

/-- An acquisition that is midway raises the proxy's counter alone. -/
def taking (s : CapacityState) (p : Nat) : Nat := if (s.acquiring p).isSome then 1 else 0

end CapacityState

end Eggchaos
