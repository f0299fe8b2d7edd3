import RemoteDeviceConsole.Framing.Frames
import RemoteDeviceConsole.Protocol.StatusParser

/-!
# The viewer's network worker

`NetworkWorker` as a function of the socket's signals.  The state has the receive
buffer, the texts written to the socket and the events emitted to the UI thread;
the signals that only carry a text for the status bar are left out.

`emitted_run_viewerSignals` is what the rest of the development needs: over any
number of connections and however the bytes were chunked, the events are those of
the complete lines of each connection, one connection after another.

The buffer is cleared when a connection ends, so the tail that a connection
leaves behind is not put in front of the first line of the next one; this is the
only place where the connections could get into each other's way.
-/

namespace RemoteDeviceConsole

open Framing

/-- What the worker emits to the UI thread. -/
inductive Emitted (D : Type) where
  | metricsReceived (line : Bytes)
  | statusReceived (status : DeviceStatus D)
  deriving DecidableEq

/-- The signals of the socket that the worker reacts to. -/
inductive SocketSignal where
  | connected
  | readyRead (data : Bytes)
  | disconnected

/-- The state of the worker. -/
structure NetworkWorker (D : Type) where
  receiveBuffer : Bytes := []
  written : List Bytes := []
  emitted : List (Emitted D) := []

variable {D : Type} [CharconvDouble D]

/-- The body of the loop of `consume_status_lines`, as the events of one line. -/
def emittedLine (line : Bytes) : List (Emitted D) :=
  if startsWith line (ascii "METRICS ") then [.metricsReceived line]
  else
    match parseStatusLine line with
    | some status => [.statusReceived status]
    | none => []

namespace NetworkWorker

/-- `consume_status_lines`. -/
def consumeStatusLines (worker : NetworkWorker D) : NetworkWorker D :=
  drainFrames newline
    (fun (worker : NetworkWorker D) line rest =>
      { worker with
        receiveBuffer := rest
        emitted := worker.emitted ++ emittedLine line })
    worker worker.receiveBuffer

/-- The lambdas that `ensure_socket` connects to the signals. -/
def handle (worker : NetworkWorker D) : SocketSignal → NetworkWorker D
  | .connected => { worker with written := worker.written ++ [ascii "HELLO role=viewer\n"] }
  | .readyRead data =>
      consumeStatusLines { worker with receiveBuffer := worker.receiveBuffer ++ data }
  | .disconnected => { worker with receiveBuffer := [] }

def run (worker : NetworkWorker D) (signals : List SocketSignal) : NetworkWorker D :=
  signals.foldl handle worker

/-! ## Chunks -/

/-- The loop emits the events of the complete lines and keeps the rest. -/
theorem consumeStatusLines_eq (worker : NetworkWorker D) :
    worker.consumeStatusLines =
      { worker with
        receiveBuffer := remainder newline worker.receiveBuffer
        emitted :=
          worker.emitted ++ (frames newline worker.receiveBuffer).flatMap emittedLine } := by
  obtain ⟨buffer, written, emitted⟩ := worker
  simp only [consumeStatusLines]
  induction buffer using frame_induction (d := newline) generalizing emitted with
  | hopen buffer hopen =>
    rw [drainFrames_of_notMem hopen, frames_of_notMem hopen, remainder_of_notMem hopen]
    simp
  | hframe line rest hline ih =>
    rw [drainFrames_frame_append hline, frames_frame_append hline, remainder_frame_append hline,
      List.flatMap_cons, ← List.append_assoc]
    exact ih _

theorem handle_readyRead (worker : NetworkWorker D) (data : Bytes) :
    worker.handle (.readyRead data) =
      { worker with
        receiveBuffer := remainder newline (worker.receiveBuffer ++ data)
        emitted := worker.emitted ++
          (frames newline (worker.receiveBuffer ++ data)).flatMap emittedLine } := by
  rw [handle, consumeStatusLines_eq]

theorem run_append (worker : NetworkWorker D) (a b : List SocketSignal) :
    worker.run (a ++ b) = (worker.run a).run b :=
  List.foldl_append

/-- **The chunks do not matter**: only the bytes they spell. -/
theorem run_readyRead {worker : NetworkWorker D} (hopen : newline ∉ worker.receiveBuffer)
    (chunks : List Bytes) :
    worker.run (chunks.map .readyRead) =
      { worker with
        receiveBuffer := remainder newline (worker.receiveBuffer ++ chunks.flatten)
        emitted := worker.emitted ++
          (frames newline (worker.receiveBuffer ++ chunks.flatten)).flatMap emittedLine } := by
  induction chunks generalizing worker with
  | nil =>
    rw [List.flatten_nil, List.append_nil, frames_of_notMem hopen, remainder_of_notMem hopen]
    simp [run]
  | cons data chunks ih =>
    have hstep : worker.run ((data :: chunks).map .readyRead) =
        (worker.handle (.readyRead data)).run (chunks.map .readyRead) := rfl
    rw [hstep, handle_readyRead, ih (notMem_remainder _ _)]
    simp only [List.flatten_cons, ← List.append_assoc]
    rw [frames_append _ (worker.receiveBuffer ++ data),
      remainder_append _ (worker.receiveBuffer ++ data),
      List.flatMap_append, List.append_assoc]

/-! ## Connections -/

/-- The signals of a connection on which these chunks arrive, until it is closed. -/
def connectionSignals (chunks : List Bytes) : List SocketSignal :=
  .connected :: chunks.map .readyRead ++ [.disconnected]

/-- The signals of connections that were closed and of one that is open. -/
def viewerSignals (closed : List (List Bytes)) (chunks : List Bytes) : List SocketSignal :=
  closed.flatMap connectionSignals ++ .connected :: chunks.map .readyRead

/-- The events of one connection. -/
def connectionEvents (chunks : List Bytes) : List (Emitted D) :=
  (frames newline chunks.flatten).flatMap emittedLine

/-- One connection, from an empty buffer. -/
theorem run_connection {worker : NetworkWorker D} (hempty : worker.receiveBuffer = [])
    (chunks : List Bytes) :
    (worker.run (.connected :: chunks.map .readyRead)).emitted =
      worker.emitted ++ connectionEvents chunks := by
  have hstep : worker.run (.connected :: chunks.map .readyRead) =
      (worker.handle .connected).run (chunks.map .readyRead) := rfl
  rw [hstep, run_readyRead (by simp [handle, hempty])]
  simp [handle, hempty, connectionEvents]

/-- **One connection after another.**  Every connection starts with an empty buffer,
so each emits the events of its own lines. -/
theorem emitted_run_viewerSignals (closed : List (List Bytes)) (chunks : List Bytes) :
    (run ({} : NetworkWorker D) (viewerSignals closed chunks)).emitted =
      (closed ++ [chunks]).flatMap connectionEvents := by
  suffices key : ∀ worker : NetworkWorker D, worker.receiveBuffer = [] →
      (worker.run (viewerSignals closed chunks)).emitted =
        worker.emitted ++ (closed ++ [chunks]).flatMap connectionEvents from key {} rfl
  induction closed with
  | nil =>
    intro worker hempty
    rw [viewerSignals, List.flatMap_nil, List.nil_append, run_connection hempty]
    simp
  | cons first closed ih =>
    intro worker hempty
    have hsplit : viewerSignals (first :: closed) chunks =
        connectionSignals first ++ viewerSignals closed chunks := by
      simp [viewerSignals]
    have hempty' : (worker.run (connectionSignals first)).receiveBuffer = [] := by
      rw [connectionSignals, run_append]
      rfl
    have hemitted : (worker.run (connectionSignals first)).emitted =
        worker.emitted ++ connectionEvents first := by
      rw [connectionSignals, run_append]
      exact run_connection hempty first
    rw [hsplit, run_append, ih _ hempty', hemitted]
    simp

end NetworkWorker

end RemoteDeviceConsole
