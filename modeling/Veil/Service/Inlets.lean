import Mathlib.Data.List.AList
import Mathlib.Data.List.Forall2
import Veil.Lib.Machine
import Veil.Control.Profile

/-!
# Changing the listeners of a connection

`Connection.SetInlets` of `service/connection.go`.  New listeners are bound
first, entry by entry, and a call that fails at any entry closes what it has
bound.  Only then are listeners stopped and the others given their handlers.

A socket is known by its number, in the order in which the process opened it.
`inbound.Listen` is a parameter: what binding an address comes to may depend on
all sockets.  A map of Go is an association list without repeated keys, in the
order of its iteration.
-/

namespace Veil.Service

open Lib Control

variable {ε : Type}

/-! ## Sockets -/

/-- The sockets that the process has opened, and those that have been closed. -/
structure Net where
  opened : Nat := 0
  closed : List Nat := []
  deriving DecidableEq

namespace Net

def close (net : Net) (socket : Nat) : Net :=
  { net with closed := net.closed ++ [socket] }

/-- Close sockets, one after another. -/
def closeAll (net : Net) (sockets : List Nat) : Net :=
  { net with closed := net.closed ++ sockets }

end Net

/-- A listener that has been bound: its socket and the address it reports. -/
structure Bound where
  socket : Nat
  addr : Text
  deriving DecidableEq

/-- What binding an address comes to: the address of the listener, or an error. -/
abbrev Binds (ε : Type) := Net → Text → Except ε Text

/-- `inbound.Listen` -/
def listen (binds : Binds ε) (net : Net) (address : Text) : Except ε Bound × Net :=
  match binds net address with
  | .error e => (.error e, net)
  | .ok addr => (.ok ⟨net.opened, addr⟩, { net with opened := net.opened + 1 })

/-! ## Connections -/

/-- The handlers of `inbound`, with the time they allow for a handshake. -/
inductive Handler where
  | socks5 (seconds : Int)
  | http (seconds : Int)
  | mixed (seconds : Int)
  deriving DecidableEq

/-- The handler for a protocol. -/
def handlerOf (cfg : Config) (protocol : Text) : Option Handler :=
  if protocol = "socks".toList then some (.socks5 cfg.handshakeSeconds)
  else if protocol = "http".toList then some (.http cfg.handshakeSeconds)
  else if protocol = "mixed".toList then some (.mixed cfg.handshakeSeconds)
  else none

/-- `proxyListener`, with the socket it serves. -/
structure ProxyListener where
  inlet : Inlet
  handler : Handler
  socket : Nat
  deriving DecidableEq

abbrev Listeners := AList fun _ : Text => ProxyListener

/-- A connection as `OpenConnection` makes it: its limit has been checked. -/
structure Connection where
  cfg : Config
  limit : 1 ≤ cfg.maxConnections ∧ cfg.maxConnections ≤ 4096
  listeners : Listeners
  inlets : List Inlet

inductive Refusal (ε : Type) where
  /-- `duplicate listener address` -/
  | duplicate
  /-- `invalid inlet protocol` -/
  | protocol
  | bind (e : ε)
  deriving DecidableEq

/-- The two maps that `SetInlets` prepares, and the sockets. -/
structure Staging where
  staged : AList fun _ : Text => Bound
  handlers : AList fun _ : Text => Handler
  net : Net

namespace Staging

def rollback (g : Staging) : Net :=
  g.net.closeAll (g.staged.entries.map (·.2.socket))

/-- The first loop of `SetInlets`. -/
def stage (binds : Binds ε) (c : Connection) :
    List Inlet → Staging → Staging × Option (Refusal ε)
  | [], g => (g, none)
  | entry :: rest, g =>
      if entry.listen ∈ g.handlers then (g, some .duplicate)
      else
        match handlerOf c.cfg entry.protocol with
        | none => (g, some .protocol)
        | some h =>
            let g := { g with handlers := g.handlers.insert entry.listen h }
            if entry.listen ∈ c.listeners then stage binds c rest g
            else
              match listen binds g.net entry.listen with
              | (.error e, net) => ({ g with net := net }, some (.bind e))
              | (.ok ln, net) =>
                  stage binds c rest
                    { g with net := net, staged := g.staged.insert entry.listen ln }

end Staging

/-- The second loop of `SetInlets`: a listener that is not kept is cancelled, which
closes its socket, and deleted. -/
def stopOthers (handlers : AList fun _ : Text => Handler) :
    List (Sigma fun _ : Text => ProxyListener) → Listeners × Net → Listeners × Net
  | [], state => state
  | ⟨addr, entry⟩ :: rest, (listeners, net) =>
      if addr ∈ handlers then stopOthers handlers rest (listeners, net)
      else stopOthers handlers rest (listeners.erase addr, net.close entry.socket)

/-- `inbound.Serve` on a new listener: it is closed at once when the limit is wrong. -/
def serve (cfg : Config) (net : Net) (socket : Nat) : Net :=
  if cfg.maxConnections < 1 ∨ 4096 < cfg.maxConnections then net.close socket else net

/-- What the third loop of `SetInlets` changes. -/
structure Commit where
  listeners : Listeners
  net : Net
  actual : List Inlet

/-- The third loop of `SetInlets`; `none` where Go would follow a nil pointer. -/
def commit (cfg : Config) (g : Staging) : List Inlet → Commit → Option Commit
  | [], state => some state
  | entry :: rest, state =>
      match g.handlers.lookup entry.listen with
      | none => none
      | some h =>
          match state.listeners.lookup entry.listen with
          | some old =>
              let inlet := { old.inlet with protocol := entry.protocol }
              commit cfg g rest {
                state with
                listeners := state.listeners.insert entry.listen
                  { old with handler := h, inlet := inlet }
                actual := state.actual ++ [inlet] }
          | none =>
              match g.staged.lookup entry.listen with
              | none => none
              | some ln =>
                  let inlet : Inlet := { protocol := entry.protocol, listen := ln.addr }
                  commit cfg g rest {
                    listeners := state.listeners.insert entry.listen ⟨inlet, h, ln.socket⟩
                    net := serve cfg state.net ln.socket
                    actual := state.actual ++ [inlet] }

/-- What a call of `SetInlets` leaves, and the error it returns. -/
structure Changed (ε : Type) where
  conn : Connection
  net : Net
  err : Option (Refusal ε)

/-- `Connection.SetInlets` -/
def Connection.setInlets (binds : Binds ε) (c : Connection) (net : Net)
    (inlets : List Inlet) : Option (Changed ε) :=
  match Staging.stage binds c inlets ⟨∅, ∅, net⟩ with
  | (g, some e) => some ⟨c, g.rollback, some e⟩
  | (g, none) =>
      let (listeners, net) := stopOthers g.handlers c.listeners.entries (c.listeners, g.net)
      (commit c.cfg g inlets ⟨listeners, net, []⟩).map fun done =>
        ⟨{ c with listeners := done.listeners, inlets := done.actual }, done.net, none⟩

/-! ## What a call is for -/

/-- The listeners of a connection own sockets that were opened, each its own. -/
structure Owned (listeners : Listeners) (net : Net) : Prop where
  known : ∀ a l, listeners.lookup a = some l → l.socket < net.opened
  closed : ∀ i ∈ net.closed, i < net.opened
  distinct : ∀ a b l m, listeners.lookup a = some l → listeners.lookup b = some m →
    l.socket = m.socket → a = b

/-- The sockets of a staging are those opened since it began. -/
structure Binding (binds : Binds ε) (net : Net) (g : Staging) : Prop where
  grown : net.opened ≤ g.net.opened
  closed : g.net.closed = net.closed
  sockets : ∀ a ln, g.staged.lookup a = some ln →
    net.opened ≤ ln.socket ∧ ln.socket < g.net.opened
  bound : ∀ a ln, g.staged.lookup a = some ln → ∃ before, binds before a = .ok ln.addr
  all : ∀ i, net.opened ≤ i → i < g.net.opened →
    ∃ a ln, g.staged.lookup a = some ln ∧ ln.socket = i
  distinct : ∀ a b ln lm, g.staged.lookup a = some ln → g.staged.lookup b = some lm →
    ln.socket = lm.socket → a = b

/-- A staging that has dealt with the entries `done`. -/
structure Staged (binds : Binds ε) (c : Connection) (net : Net) (done : List Inlet)
    (g : Staging) : Prop extends Binding binds net g where
  nodup : (done.map Inlet.listen).Nodup
  handlers : ∀ a, a ∈ g.handlers ↔ a ∈ done.map Inlet.listen
  given : ∀ entry ∈ done, ∃ h, g.handlers.lookup entry.listen = some h ∧
    handlerOf c.cfg entry.protocol = some h
  staged : ∀ a, a ∈ g.staged ↔ a ∈ done.map Inlet.listen ∧ a ∉ c.listeners

section Staging

variable {binds : Binds ε} {c : Connection} {net : Net} {done : List Inlet} {g : Staging}

end Staging

/-- What the third loop makes of an entry. -/
structure Installs (c : Connection) (g : Staging) (entry : Inlet) (l : ProxyListener) :
    Prop where
  protocol : l.inlet.protocol = entry.protocol
  handler : handlerOf c.cfg entry.protocol = some l.handler
  kept : ∀ old, c.listeners.lookup entry.listen = some old →
    l.socket = old.socket ∧ l.inlet.listen = old.inlet.listen
  fresh : entry.listen ∉ c.listeners → ∃ ln, g.staged.lookup entry.listen = some ln ∧
    l.socket = ln.socket ∧ l.inlet.listen = ln.addr

/-- The third loop, when it has dealt with the entries `done`. -/
structure Committed (c : Connection) (g : Staging) (base : Commit) (done : List Inlet)
    (state : Commit) : Prop where
  net : state.net = base.net
  others : ∀ a, a ∉ done.map Inlet.listen →
    state.listeners.lookup a = base.listeners.lookup a
  actual : List.Forall₂ (fun entry inlet => ∃ l,
    state.listeners.lookup entry.listen = some l ∧ l.inlet = inlet ∧
      Installs c g entry l) done state.actual

/-- One more entry of the third loop. -/
theorem Committed.snoc {c : Connection} {g : Staging} {base state : Commit}
    {done : List Inlet} (held : Committed c g base done state) {entry : Inlet}
    (new : entry.listen ∉ done.map Inlet.listen) {l : ProxyListener}
    (installs : Installs c g entry l) :
    Committed c g base (done ++ [entry])
      ⟨state.listeners.insert entry.listen l, state.net, state.actual ++ [l.inlet]⟩ := by
  refine ⟨held.net, ?_, ?_⟩
  · intro a absent
    rw [List.map_append, List.mem_append, not_or] at absent
    have different : a ≠ entry.listen := by simpa using absent.2
    exact (AList.lookup_insert_ne different).trans (held.others a absent.1)
  · refine List.rel_append ?_ (.cons ⟨l, AList.lookup_insert _, rfl, installs⟩ .nil)
    have before : ∀ other ∈ done, other.listen ≠ entry.listen :=
      fun other member same => new (same ▸ List.mem_map_of_mem member)
    have both := (List.forall₂_and_left _ _).mpr ⟨before, held.actual⟩
    refine both.imp ?_
    rintro other inlet ⟨different, l', found, same, right⟩
    exact ⟨l', (AList.lookup_insert_ne different).trans found, same, right⟩

section Call

variable {binds : Binds ε} {c : Connection} {net : Net} {inlets : List Inlet}
  {g : Staging} {base final : Commit}

/-- Two lists that are related item by item, at an item of the first. -/
theorem forall₂_mem {α β : Type*} {R : α → β → Prop} {as : List α} {bs : List β}
    (related : List.Forall₂ R as bs) {a : α} (member : a ∈ as) : ∃ b ∈ bs, R a b := by
  induction related with
  | nil => cases member
  | @cons a' b as bs here later induction =>
      rcases List.mem_cons.mp member with rfl | after
      · exact ⟨b, List.mem_cons_self, here⟩
      · obtain ⟨b', found, right⟩ := induction after
        exact ⟨b', List.mem_cons_of_mem b found, right⟩

/-- What the second loop leaves for the third. -/
structure Stopped (c : Connection) (g : Staging) (base : Commit) : Prop where
  lookup : ∀ a, base.listeners.lookup a =
    if a ∈ g.handlers then c.listeners.lookup a else none
  opened : base.net.opened = g.net.opened
  closed : ∀ i, i ∈ base.net.closed ↔ i ∈ g.net.closed ∨
    ∃ a old, c.listeners.lookup a = some old ∧ a ∉ g.handlers ∧ old.socket = i

/-- A listener after the call belongs to a requested entry. -/
theorem Committed.entry (held : Committed c g base inlets final)
    (staged : Staged binds c net inlets g) (stopped : Stopped c g base) {a : Text}
    {l : ProxyListener} (found : final.listeners.lookup a = some l) :
    ∃ entry ∈ inlets, entry.listen = a ∧ Installs c g entry l := by
  by_cases listed : a ∈ inlets.map Inlet.listen
  · obtain ⟨entry, member, rfl⟩ := List.mem_map.mp listed
    obtain ⟨inlet, -, l', found', -, installs⟩ := forall₂_mem held.actual member
    obtain rfl := Option.some.inj (found.symm.trans found')
    exact ⟨entry, member, rfl, installs⟩
  · have gone : a ∉ g.handlers := fun kept => listed ((staged.handlers a).mp kept)
    rw [held.others a listed, stopped.lookup, if_neg gone] at found
    cases found

end Call

/-! ## Connections over time -/

/-- A connection and the sockets of its process. -/
structure Process where
  conn : Connection
  net : Net

/-- What can happen to a connection's listeners and to the sockets of its process. -/
inductive Event (ε : Type) where
  | setInlets (binds : Binds ε) (inlets : List Inlet)
  /-- Any part of the process opens a socket. -/
  | opens
  /-- Any part of the process closes a socket; a listener whose `Serve` gives up does. -/
  | closes (socket : Nat)

/-- Connections from `OpenConnection` on, which begins without listeners. -/
def connections : Machine Process (Event ε) where
  start s := s.conn.listeners = ∅ ∧ s.conn.inlets = [] ∧ ∀ i ∈ s.net.closed, i < s.net.opened
  step s
    | .setInlets binds inlets =>
        (s.conn.setInlets binds s.net inlets).map fun done => ⟨done.conn, done.net⟩
    | .opens => some { s with net := { s.net with opened := s.net.opened + 1 } }
    | .closes socket =>
        if socket < s.net.opened then some { s with net := s.net.close socket } else none

/-- Every address is free, and is reported as it is. -/
def free : Binds Unit := fun _ address => .ok address

end Veil.Service
