import Freeflow.Flowpath.Management
import Freeflow.Lib.Loop

/-!
# `Flowpath.Main` — the program `flowpath`

`main` of `main.c`, with `fp_mgr_open`, `fp_mgr_incoming` and `fp_mgr_close` of `manage.c`: the channel to `flowmgr` is
opened, and what arrives on it is handled until a signal, a failure of `poll`, or a call of `fp_mgr_incoming` that does not
succeed. What the system calls answer is an argument. The program is written for any request functions, so that it also
runs over the machine of `Flowpath.Management`.

## Contents
- `Dial`, `mgrOpen`.
- `Reading`, `Served`, `mgrIncomingCall`: a call of `fp_mgr_incoming`.
- `Iteration`, `iterate`: an iteration of the loop.
- `Exit`, `main`.
- `Iteration.ends`, `Iteration.call`, `calls`, `exitOf`: when the loop ends, and what is handled before it does.
-/

namespace Freeflow
namespace Flowpath

open Json (Text)

variable {σ ω D : Type}

/-- What `socket` and `connect` return. -/
structure Dial where
  fd : Int
  connected : Int

/-- `fp_mgr_open`. -/
def mgrOpen (d : Dial) : Int :=
  if d.fd < 0 then -1
  else if d.connected < 0 then -1
  else d.fd

/-- What a call of `fp_mgr_incoming` meets: the message that `recv` gives unless it fails, and what `send` returns. -/
structure Reading (ω D : Type) where
  message : Option (Message ω D)
  outbytes : Int

/-- A message that was handled, and what `send` returned for the reply. -/
structure Served where
  incoming : Incoming
  outbytes : Int

/-- What follows a successful `recv`. The result is looked up for the diagnostics before the reply is sent. -/
def serve (strerror : Int → Text) (fns : Env ω D → RequestFns σ) (s : σ) (c : Message ω D × Int) :
    Checked (σ × Served) := do
  let (s, incoming) ← (fns c.1.env).incoming c.1.received c.1.outbuf s
  let _ ← fpStrerror strerror (loadInt incoming.reply resultOffset)
  return (s, ⟨incoming, c.2⟩)

/-- `fp_mgr_incoming`. -/
def mgrIncomingCall (strerror : Int → Text) (fns : Env ω D → RequestFns σ) (s : σ) (a : Reading ω D) :
    Checked (σ × Option Served × Int) :=
  match a.message with
  | none => return (s, none, -1)
  | some msg => do
      let (s, served) ← serve strerror fns s (msg, a.outbytes)
      if a.outbytes ≤ 0 then
        if a.outbytes < 0 then return (s, some served, -1) else return (s, some served, 0)
      else return (s, some served, 1)

/-- `POLLIN`. -/
def pollin : UInt16 := 1

/-- What an iteration of the loop meets: whether a signal has arrived, what `poll` returns and reports for the channel, and
    what the call of `fp_mgr_incoming` meets. -/
structure Iteration (ω D : Type) where
  signalled : Bool
  polled : Int
  revents : UInt16
  reading : Reading ω D

/-- What came of an iteration: a message that was handled, and whether the loop goes on. -/
structure Pass where
  served : Option Served
  running : Bool

/-- An iteration of the loop of `main`, with the test before it. -/
def iterate (strerror : Int → Text) (fns : Env ω D → RequestFns σ) (s : σ) (i : Iteration ω D) : Checked (σ × Pass) :=
  let running := !i.signalled
  if running then
    if i.polled < 0 then return (s, ⟨none, false⟩)
    else
      let revents := i.revents &&& pollin
      if revents ≠ 0 then do
        let (s, served, result) ← mgrIncomingCall strerror fns s i.reading
        if result ≤ 0 then return (s, ⟨served, false⟩) else return (s, ⟨served, true⟩)
      else return (s, ⟨none, true⟩)
  else return (s, ⟨none, false⟩)

/-- What the program has done: the status it has exited with, the messages it has handled, and whether it has closed the
    channel. -/
structure Exit where
  status : Option Int
  served : List Served
  closed : Bool

/-- `main`. The iterations are those the system lets it make. -/
def main (strerror : Int → Text) (fns : Env ω D → RequestFns σ) (s : σ) (d : Dial) (is : List (Iteration ω D)) :
    Checked (σ × Exit) := do
  let mgr := mgrOpen d
  if mgr < 1 then return (s, ⟨some (-1), [], false⟩)
  else do
    let (s, passes, ended) ← runUntil (iterate strerror fns) (fun p => !p.running) s is
    return (s, ⟨if ended then some 0 else none, passes.filterMap Pass.served, ended⟩)

/-! ## What the system decides -/

/-- The channel can be read. -/
def Iteration.readable (i : Iteration ω D) : Bool := !i.signalled && decide (0 ≤ i.polled) && decide (i.revents &&& pollin ≠ 0)

/-- The message that the iteration handles, and what `send` returns for the reply. -/
def Iteration.call (i : Iteration ω D) : Option (Message ω D × Int) :=
  if i.readable then i.reading.message.map fun msg => (msg, i.reading.outbytes) else none

/-- The iteration is the last: it meets a signal or a failure. -/
def Iteration.ends (i : Iteration ω D) : Bool :=
  i.signalled || decide (i.polled < 0) ||
    i.readable && (i.reading.message.isNone || decide (i.reading.outbytes ≤ 0))

/-- The messages that arrive before the program ends. -/
def calls (d : Dial) (is : List (Iteration ω D)) : List (Message ω D × Int) :=
  if mgrOpen d < 1 then [] else (upTo Iteration.ends is).filterMap Iteration.call

end Flowpath
end Freeflow
