/-
Module: GenericSumType.Examples.ProtocolFrameDemo
Layer: Examples
Purpose: The describe functions of `examples/protocol_frame.h` and the loop of
  `examples/protocol_frame_demo.c`, which classifies each received line and describes the frame.  The
  handlers keep the accesses of their `printf` arguments.
Imports: GenericSumType.Examples.ProtocolFrame
Trusted boundary: human-reviewed transcription of the header and of the demo
Main exports: ngErrorName, describers, frameDescribe, receiveLine, receiveLines
Open obligations: none
-/
import GenericSumType.Examples.ProtocolFrame

namespace GenericSumType

namespace ProtocolFrame

open CString

/-- `ng_error_name` -/
def ngErrorName (code : Int) : String :=
  match code with
  | 1 => "T001 STXエラー"
  | 2 => "T002 コマンドエラー"
  | 3 => "T003 フォーマットエラー"
  | 4 => "T004 コンテンツエラー"
  | _ => "未知のエラー番号"

/-- What a describe function prints and returns. -/
abbrev Described : Type := Except OutOfBounds (Line × Int)

def describeWrite (f : FrameWriteRequest) : Described := do
  let command ← readString f.command.bytes
  let args ← readString f.args.bytes
  .ok (⟨"[FRAME] Write要求  command=%-4s args=\"%s\"\n", [.s command, .s args]⟩, 0)

def describeRead (f : FrameReadRequest) : Described := do
  let command ← readString f.command.bytes
  let args ← readString f.args.bytes
  .ok (⟨"[FRAME] Read要求   command=%-4s args=\"%s\"\n", [.s command, .s args]⟩, 0)

def describeOk (f : FrameOkReply) : Described := do
  let payload ← readString f.payload.bytes
  .ok (⟨"[FRAME] OK応答     payload=\"%s\"\n", [.s payload]⟩, 0)

def describeNg (f : FrameNgReply) : Described :=
  .ok (⟨"[FRAME] NG応答     %s\n", [.constant (ngErrorName f.errorCode)]⟩, 0)

/-- The describe functions in list order. -/
def describers : (i : Fin Frame.size) → Frame.Payload model i → Described
  | ⟨0, _⟩ => describeWrite
  | ⟨1, _⟩ => describeRead
  | ⟨2, _⟩ => describeOk
  | ⟨3, _⟩ => describeNg

/-- Everything printed so far, or the first undefined access. -/
abbrev Printed : Type := Except OutOfBounds (List Line)

/-- A describe function as a handler of the generated match. -/
def describe (i : Fin Frame.size) (w : Printed) (f : Frame.Payload model i) :
    Printed × Frame.Payload model i × Except OutOfBounds Int :=
  (do
      let printed ← w
      let (line, _) ← describers i f
      .ok (printed ++ [line]),
    f, (describers i f).map Prod.snd)

/-- `Frame_describe(&f, describe_write, describe_read, describe_ok, describe_ng)` -/
def frameDescribe (printed : Printed) (f : RawSum model) :
    Except Fault (Printed × Except OutOfBounds Int) := do
  match ← Frame.matchFn.run Frame.decl .default
      (Frame.arguments model (R := fun _ => Except OutOfBounds Int) describe) printed f with
  | (done, .value _ returned) => .ok (done.world, returned)
  | _ => .error .unreachable

/-- `Frame f = classify_line(line); Frame_describe(&f, ...);` -/
def receiveLine (printed : Printed) (line : List UInt8) : Except Fault Printed :=
  match printed, classifyLine line with
  | .error e, _ => .ok (.error e)
  | .ok _, .error e => .ok (.error e)
  | .ok _, .ok made => do
      let f ← made
      let (printed, _) ← frameDescribe printed f
      .ok printed

/-- The loop over `received_lines` -/
def receiveLines (received : List (List UInt8)) : Except Fault Printed :=
  received.foldlM receiveLine (.ok [])

end ProtocolFrame

end GenericSumType
