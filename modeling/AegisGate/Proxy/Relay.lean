import AegisGate.Http.ResponseParser
import AegisGate.Proxy.Downstream

/-!
# Relaying a response body

Once the head of a response is committed its body streams through three objects: the
upstream connection reads chunks and hands them to the sink, the transaction writes them to
the client and pauses the upstream when the client's queue is high, and the client reports
a drained queue so that the upstream resumes. They call one another synchronously.

A `Relay` is an exchange together with the reading side of its upstream connection. The
functions follow `HandleStreamingRead`, `ConsumeStreamingInput`, `PauseReading` and
`ResumeReading` of `src/net/UpstreamConnection.cpp` in the state after the head was
reported; what `recv` and `send` return are arguments, and a call answered by `EINTR` is
not an answer.

The sink runs with reading not paused, since the read loop looks at the flag first. So the
`ResumeReading` a drain notice may lead to inside the sink returns at once: it does
nothing unless reading is paused.
-/

namespace AegisGate.Proxy
open Http Net

/-- What one `recv` into the 64 KiB buffer brings. -/
def Chunk : Type := { bytes : Bytes // bytes ≠ [] ∧ bytes.length ≤ 64 * 1024 }

/-- The kernel's answer to one `recv`. -/
inductive RecvResult
  | data (chunk : Chunk)
  | eof
  | again
  | failed

/-- An exchange with the reading side of its connection. `received` records the bytes that
came after the head, and `ended` how the exchange ended; no branch reads them. -/
structure Relay where
  exchange : Exchange
  parser : HttpResponseParser
  input : Bytes := []
  received : Bytes := []
  ended : Option UpstreamResult := none

namespace Relay

section
variable (r : Relay)

def readingPaused (r : Relay) : Bool := r.exchange.upstream.any Upstream.readingPaused

/-- `PauseReading`, by the connection itself. -/
def pauseReading (r : Relay) : Relay :=
  { r with exchange := { r.exchange with
      upstream := r.exchange.upstream.map Upstream.pauseReading } }

/-- `Finish`: the exchange is over and its result reaches the transaction. -/
def finish (result : UpstreamResult) : Relay :=
  { r with
    exchange := (r.exchange.noteDelivered result).handleUpstream result {} []
    ended := some result }

/-- `input_.Append`. -/
def append (bytes : Bytes) : Relay :=
  { r with input := r.input ++ bytes, received := r.received ++ bytes }

/-- What `ConsumeStreamingInput` makes of the parser's answer; the flag says whether the
read loop goes on. -/
def afterConsume (result : ParseResult) : Relay × Bool :=
  if result = .complete then (r.finish .success, false)
  else if !r.input.isEmpty then (r.pauseReading, false)
  else (r, true)

/-- `ConsumeStreamingInput` after the head. -/
def consumeStreamingInput (answers : List SendResult) : Option (Relay × Bool) :=
  if r.parser.bodyComplete then some (r.finish .success, false)
  else (r.parser.consumeBody r.input (fun bytes x => x.handleResponseBody bytes answers)
      r.exchange).map fun (parser, input, exchange, result) =>
    { r with parser, input, exchange }.afterConsume result

/-- The loop of `HandleStreamingRead` with nothing buffered. Each answer of `recv` comes with
the answers of the `send` calls its bytes lead to; without one the socket is empty. -/
def readLoop (r : Relay) : List (RecvResult × List SendResult) → Option Relay
  | [] => some r
  | (result, answers) :: rest =>
    if r.readingPaused then some r
    else match result with
      | .again => some r
      | .eof => some (r.finish .eof)
      | .failed => some (r.finish .readError)
      | .data chunk => ((r.append chunk.1).consumeStreamingInput answers).bind fun (r, go) =>
        if go then r.readLoop rest else some r

/-- `HandleStreamingRead`: what is buffered is consumed first. -/
def handleStreamingRead (residual : List SendResult)
    (results : List (RecvResult × List SendResult)) : Option Relay :=
  if r.readingPaused then some r
  else if r.input.isEmpty then r.readLoop results
  else (r.consumeStreamingInput residual).bind fun (r, go) =>
    if go then r.readLoop results else some r

/-- `HandleWrite` of the client. A drain notice that ends a pause goes on to read what is
still buffered. -/
def handleClientWrite (answers residual : List SendResult)
    (results : List (RecvResult × List SendResult)) : Option Relay :=
  let (client, notice) := r.exchange.client.handleWrite answers
  let r' := { r with exchange := { r.exchange with client }.deliver notice }
  if r.readingPaused && !r'.readingPaused && !r'.input.isEmpty then
    r'.handleStreamingRead residual results
  else some r'

/-- What can happen while a response is relayed. -/
inductive Event
  /-- The upstream is readable. -/
  | readable (residual : List SendResult) (results : List (RecvResult × List SendResult))
  /-- `EPOLLOUT` on the client. -/
  | writable (answers residual : List SendResult) (results : List (RecvResult × List SendResult))
  /-- The client's peer is gone. -/
  | clientTerminal (answers : List SendResult)
  /-- A deadline of the transaction expires. -/
  | deadline (answers : List SendResult)

/-- The upstream exchange is in state `kReading`. -/
def reading (r : Relay) : Bool := r.exchange.upstream.any Upstream.reading

/-- The state after an event; `none` when the event cannot happen. -/
def step : Event → Option Relay
  | .readable residual results =>
    if r.reading then r.handleStreamingRead residual results else none
  | .writable answers residual results =>
    if r.exchange.client.alive then r.handleClientWrite answers residual results else none
  | .clientTerminal answers =>
    if r.exchange.client.alive && r.exchange.client.valid && r.exchange.client.readingPaused then
      some { r with exchange := r.exchange.clientTerminal answers }
    else none
  | .deadline answers => some { r with exchange := r.exchange.finishGatewayTimeout answers }

end

def noteHead (x : Exchange) (head : HttpResponseHead) : Exchange :=
  { x with upstream := x.upstream.map fun u : Upstream => { u with head := some head } }

/-- The head part of `ConsumeStreamingInput` and the read loop it goes back to: the head is
parsed and reported, `rest` is what was received behind it. -/
def commit (x : Exchange) (parsed : ParsedHeader) (rest : Bytes)
    (answers residual : List SendResult) (results : List (RecvResult × List SendResult)) :
    Option Relay :=
  let parser :=
    ({ responseToHead := x.tx.method == ascii "HEAD" } : HttpResponseParser).parseHeaders parsed
  let r : Relay :=
    { exchange := (noteHead x parser.head).handleResponseHead parser.head answers
      parser, input := rest, received := rest }
  if parser.bodyComplete then some (r.finish .success)
  else r.handleStreamingRead residual results

end Relay
end AegisGate.Proxy
