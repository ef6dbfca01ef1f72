import FileTransfer.Sample3.Fragments
import FileTransfer.Sample3.Resending

/-!
# Any sequence of calls on one object

`Endpoint.lean` runs the calls of a program.  Here a `SockLib` object is called in any order, and its
protected functions directly: `sock_sendto`, `copy_2_winbuf`, `send_all_win_packets` and `udp_sendtoEx`
besides `send_file`, `sock_sendtoEx` and the rest.
-/

namespace FileTransfer
namespace Sample3

/-- What the calls on an object are about. -/
inductive Activity where
  /-- the calls that leave the window and the counter alone -/
  | rest
  /-- `sock_sendto` and the handshakes, which set the counter -/
  | handshake
  /-- the calls that work on the window -/
  | send
  deriving DecidableEq

inductive ObjectCall where
  /-- the calls of a program -/
  | program (c : Call)
  /-- `sock_sendto(buf, length, handshake)`, with what comes of its attempts -/
  | sockSendto (mem : Nat → Byte) (length : Int) (handshake : Bool) (as : List Attempt)
  | copy2Winbuf (buf : Payload)
  | sendAllWinPackets (flag : Bool)
  /-- `udp_sendtoEx`; `buf` is an index into the memory at `winBuf`, as in `SendtoEx` -/
  | udpSendtoEx (buf : Nat)

/-- An object, and the local variables of `udp_sendtoEx` while it waits for a caller outside the programs. -/
structure Object where
  endpoint : Endpoint Unit
  direct : Option SendtoEx

namespace Object

variable (t : Object)

def withLib (s : SockLib) : Object := { t with endpoint := { t.endpoint with lib := s } }

/-- A call from outside the programs returns. -/
def returns (r : Int) : Object := ⟨t.endpoint.finish idleApp (.code r), none⟩

/-- Such a call goes on where a function of the sender has stopped. -/
def settle : Outcome → Object
  | .waits l => { t with direct := some l }
  | .returns r => t.returns r

/-- Begin a call; `none` while `sock_sendto` waits. -/
def call (o : Oracle) : ObjectCall → Option (Object × List Datagram)
  | .program c =>
      let (e, out) := t.endpoint.begin idleApp o c
      some (⟨e, none⟩, out)
  | .sockSendto mem length handshake as =>
      (t.endpoint.lib.sockSendto mem length handshake as).map fun (s, frames, r) =>
        ((t.withLib s).returns r, frames.map (⟨·, .handshakeRequest⟩))
  | .copy2Winbuf buf =>
      let t' := { t with endpoint := t.endpoint.copied buf }
      if (t.endpoint.lib.copy2Winbuf buf).2 then
        let (out, oc) := t'.endpoint.lib.sendAllWinPackets o
        some (t'.settle oc, out)
      else some (t'.returns 1, [])
  | .sendAllWinPackets true =>
      -- the result counts the packets sent
      match t.endpoint.lib.resendAll o with
      | (out, true) => some (t.returns out.length, out)
      | (out, false) => some (t.returns (-1), out)
  | .sendAllWinPackets false =>
      let (out, oc) := t.endpoint.lib.sendAllWinPackets o
      some (t.settle oc, out)
  | .udpSendtoEx buf =>
      let (out, oc) := t.endpoint.lib.udpSendtoEx o buf []
      some (t.settle oc, out)

/-- `udp_sendtoEx` goes on without a datagram. -/
def wait (l : SendtoEx) : Act → Option (Object × List Datagram)
  | .run _ => none
  | .timeout o =>
      let (out, oc) := t.endpoint.lib.udpSendtoExTimeout o l
      some (t.settle oc, out)
  | .error => some (t.returns (-1), [])

/-- `udp_sendtoEx` takes a datagram in. -/
def packet (o : Oracle) (l : SendtoEx) (d : Datagram) : Object × List Datagram :=
  let (s, out, oc) := t.endpoint.lib.udpSendtoExPacket o l d.pkt
  ((t.withLib s).settle oc, out)

end Object

/-- The steps of an object without a datagram. -/
inductive ObjectAct where
  | call (o : Oracle) (c : ObjectCall)
  | act (i : Act)

/-- The object as a party: it is called whenever the last call has returned. -/
def objectMachine : Machine Object ObjectAct Oracle Datagram where
  act t
    | .call o c =>
        match t.direct, t.endpoint.ctl with
        | none, .idle => t.call o c
        | _, _ => none
    | .act i =>
        match t.direct with
        | none => ((machine idleApp).act t.endpoint i).map fun p => (⟨p.1, none⟩, p.2)
        | some l => t.wait l i
  recv t o d :=
    match t.direct with
    | none => ((machine idleApp).recv t.endpoint o d).map fun p => (⟨p.1, none⟩, p.2)
    | some l => some (t.packet o l d)

/-! ## What the steps are about -/

def Control.activity : Control → Activity
  | .sendFile _ _ => .send
  | .sendFileLast => .send
  | .sockSendtoEx => .send
  | .udpSendtoEx _ _ => .send
  | .udpSendto _ _ _ => .handshake
  | .serverHandshake => .handshake
  | _ => .rest

def Object.activity (t : Object) : Activity :=
  match t.direct with
  | none => t.endpoint.ctl.activity
  | some _ => .send

def ObjectCall.activity : ObjectCall → Activity
  | .program (.clientHandshake _ _) => .handshake
  | .program (.serverHandshake _) => .handshake
  | .program (.sockSendtoEx _ _) => .send
  | .program (.sendFile _) => .send
  | .program _ => .rest
  | .sockSendto _ _ _ _ => .handshake
  | .copy2Winbuf _ => .send
  | .sendAllWinPackets _ => .send
  | .udpSendtoEx _ => .send

/-- The call that an event begins. -/
def calledBy : SoloEvent ObjectAct Oracle Datagram → Option ObjectCall
  | .act (.call _ c) => some c
  | _ => none

end Sample3
end FileTransfer
