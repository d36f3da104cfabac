import Mudong.Lib.Decimal
import Mudong.Lib.Int64
import Mudong.Lib.Run
import Mudong.TcpConnection.Input

namespace mudong.ev

/-- The characters of a string as its bytes, and back. -/
def bytesOf (s : List Char) : List UInt8 := s.map fun c => UInt8.ofNat c.toNat
def charsOf (s : List UInt8) : List Char := s.map fun byte => Char.ofNat byte.toNat

def LLONG_MIN : Int := -2 ^ 63
def LLONG_MAX : Int := 2 ^ 63 - 1

/-- What ends the process: one of the exceptions of `std::stoll`, which nobody catches, or the `FATAL` of the server's
`closeConnection`, which does not find a connection that it has erased before. -/
inductive AddOneFailure where
  | invalid_argument
  | out_of_range
  | fatal
  deriving DecidableEq, Repr

def stoll (s : List UInt8) : Except AddOneFailure Int64 :=
  match Decimal.toInt (charsOf s) with
  | none => .error .invalid_argument
  | some n => if LLONG_MIN ≤ n ∧ n ≤ LLONG_MAX then .ok (Int64.ofInt n) else .error .out_of_range

/-- `oldNum + 1`, which wraps around in the compiled program. -/
def addOne (oldNum : Int64) : Int64 := oldNum + 1

/-- Where the loop thread stands in `onMessage` with the bytes that were just read: before its first send, waiting for
the thread pool, or with the result of the pool before its second send. -/
inductive AddOnePhase where
  | greeting (data : List UInt8)
  | calculating (data : List UInt8)
  | replying (result : Int64)
  deriving DecidableEq, Repr

/-- A connection of the server in its loop. `calculated` lists what the messages brought that the pool has come to,
`results` the sums it has returned, and `answers` whether the second send found the connection connected. -/
structure AddOneServer extends World where
  tid : Nat
  onMessage : Option AddOnePhase
  failure : Option AddOneFailure
  calculated : List (List UInt8)
  results : List Int64
  answers : List Bool

/-- A step of the connection, or the next step of `onMessage`. -/
inductive AddOneLabel where
  | conn (l : Label)
  | greet (write : WriteResult)
  | calculate (ttid : Nat)
  | reply (write : WriteResult)

/-- The steps that other threads make while the loop thread is inside `onMessage`. -/
def Label.elsewhere : Label → Bool
  | .start _ _ | .advance _ | .pushOther => true
  | _ => false

/-- What a dispatch may read. -/
def Label.readData : Label → List UInt8
  | .dispatch read _ => read.data
  | _ => []

namespace AddOneServer

def init (tid others wakeups : Nat) : AddOneServer :=
  { World.established others wakeups with
    tid
    onMessage := none
    failure := none
    calculated := []
    results := []
    answers := [] }

def greetingText (tid : Nat) : List UInt8 :=
  bytesOf ("Connection handled by tid ".toList ++ Nat.toDigits 10 tid ++ ", ".toList)

def calculationText (ttid : Nat) : List UInt8 :=
  bytesOf ("calculation handled by tid ".toList ++ Nat.toDigits 10 ttid ++ ": ".toList)

/-- The task that the pool runs: the buffer is emptied into a string, and gets its next text only if that begins with a
number. -/
def calculate (a : AddOneServer) (data : List UInt8) (ttid : Nat) : AddOneServer :=
  let text := a.inputBuffer_.readable
  let a := { a with inputBuffer_ := a.inputBuffer_.retrieveAll, calculated := a.calculated ++ [data] }
  match stoll text with
  | .error failure => { a with failure := some failure }
  | .ok oldNum =>
    { a with
      inputBuffer_ := a.inputBuffer_.append (calculationText ttid)
      onMessage := some (.replying (addOne oldNum))
      results := a.results ++ [addOne oldNum] }

/-- The text of a result in the answer. -/
def resultText (result : Int64) : List UInt8 := bytesOf (Decimal.ofInt result.toInt ++ ['\n'])

/-- The rest of `onMessage`, from the result on: the buffer is handed to `send`, which empties it if the connection is
connected. -/
def reply (a : AddOneServer) (result : Int64) (write : WriteResult) : AddOneServer :=
  let buffer := a.inputBuffer_.append (resultText result)
  let sent := a.sendBuffer buffer write
  { a with
    toConn := { sent.1 with inputBuffer_ := sent.2 }
    onMessage := none
    answers := a.answers ++ [decide (a.state_ = .kConnected)] }

/-- What the server makes of a step of the connection: it erases the connection when it closes first, and runs
`onMessage` for a message. -/
def conn (a : AddOneServer) (l : Label) (w : World) : AddOneServer :=
  if 1 < w.closes then { a with toWorld := w, failure := some .fatal }
  else if a.messages < w.messages then { a with toWorld := w, onMessage := some (.greeting l.readData) }
  else { a with toWorld := w }

def step (a : AddOneServer) (l : AddOneLabel) : Option AddOneServer :=
  if a.failure ≠ none then none
  else
    match l with
    | .conn l =>
      if l.leavesInput = true ∧ (a.onMessage = none ∨ l.elsewhere = true) then
        (a.toWorld.step l).map (a.conn l)
      else none
    | .greet write =>
      match a.onMessage with
      | some (.greeting data) =>
        (a.toWorld.step (.call (.send (.stringView (greetingText a.tid))) write)).map fun w =>
          { a with toWorld := w, onMessage := some (.calculating data) }
      | _ => none
    | .calculate ttid =>
      match a.onMessage with
      | some (.calculating data) => some (a.calculate data ttid)
      | _ => none
    | .reply write =>
      match a.onMessage with
      | some (.replying result) =>
        if write.Fits ((a.inputBuffer_.readable ++ resultText result).length) then
          some (a.reply result write)
        else none
      | _ => none

end AddOneServer

end mudong.ev
