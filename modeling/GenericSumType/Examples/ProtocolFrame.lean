/-
Module: GenericSumType.Examples.ProtocolFrame
Layer: Examples
Purpose: `examples/protocol_frame.h`: the frames of the communication protocol and the classification of
  a received line.  The line is given by the bytes of its array.
Imports: GenericSumType.Header.Program, GenericSumType.Library.CString, GenericSumType.Library.Scanf
Trusted boundary: human-reviewed transcription of the header
Main exports: Frame, FrameWriteRequest, FrameNgReply, classifyLine
Open obligations: none
-/
import GenericSumType.Header.Program
import GenericSumType.Library.CString
import GenericSumType.Library.Scanf

namespace GenericSumType

namespace ProtocolFrame

open CString

inductive TypeText where
  | FrameWriteRequest
  | FrameReadRequest
  | FrameOkReply
  | FrameNgReply
  | int
deriving DecidableEq, Repr

/-- `W,CMD,args...` -/
structure FrameWriteRequest where
  command : CharArray 8
  args : CharArray 64
deriving DecidableEq, Repr

/-- `R,CMD,args...` -/
structure FrameReadRequest where
  command : CharArray 8
  args : CharArray 64
deriving DecidableEq, Repr

/-- `OK[,vals...]` -/
structure FrameOkReply where
  payload : CharArray 64
deriving DecidableEq, Repr

/-- `NG,Txxx` -/
structure FrameNgReply where
  errorCode : Int
deriving DecidableEq, Repr

def model : TypeModel TypeText where
  typedefs b := .named b false
  Val
    | .named .FrameWriteRequest _ => FrameWriteRequest
    | .named .FrameReadRequest _ => FrameReadRequest
    | .named .FrameOkReply _ => FrameOkReply
    | .named .FrameNgReply _ => FrameNgReply
    | .named .int _ => Int
    | .pointer _ _ => Unit
  zero
    | .named .FrameWriteRequest _ => { command := .zero 8, args := .zero 64 }
    | .named .FrameReadRequest _ => { command := .zero 8, args := .zero 64 }
    | .named .FrameOkReply _ => { payload := .zero 64 }
    | .named .FrameNgReply _ => { errorCode := 0 }
    | .named .int _ => (0 : Int)
    | .pointer _ _ => ()

/-- `FRAME_VARIANTS` -/
def Frame : SumInstance TypeText where
  NAME := "Frame"
  VARIANTS :=
    [{ tag := "write_request", type := { base := .FrameWriteRequest, tail := [] } },
      { tag := "read_request", type := { base := .FrameReadRequest, tail := [] } },
      { tag := "ok_reply", type := { base := .FrameOkReply, tail := [] } },
      { tag := "ng_reply", type := { base := .FrameNgReply, tail := [] } }]
  MATCH_FN := "Frame_describe"
  RET_TYPE := [.name .int]
  nonempty := by simp
  tagsDistinct := by simp
  onParamsVisible := by decide
  copyParamsVisible := by decide

section Constructors

def newWriteRequest (f : FrameWriteRequest) : Except Fault (RawSum model) :=
  Frame.decl.callCtor "Frame_new_write_request" ⟨.named .FrameWriteRequest false, f⟩

def newReadRequest (f : FrameReadRequest) : Except Fault (RawSum model) :=
  Frame.decl.callCtor "Frame_new_read_request" ⟨.named .FrameReadRequest false, f⟩

def newOkReply (f : FrameOkReply) : Except Fault (RawSum model) :=
  Frame.decl.callCtor "Frame_new_ok_reply" ⟨.named .FrameOkReply false, f⟩

def newNgReply (f : FrameNgReply) : Except Fault (RawSum model) :=
  Frame.decl.callCtor "Frame_new_ng_reply" ⟨.named .FrameNgReply false, f⟩

end Constructors

/-- A string constant of ASCII characters. -/
def literal (chars : List Char) : List UInt8 := chars.map Char.toUInt8

/-- `','` -/
def comma : UInt8 := 44

/-- The statements that both request branches have after their prefix. -/
def requestFields (rest : List UInt8) : Except OutOfBounds (CharArray 8 × CharArray 64) := do
  let found ← strchr comma rest
  let cmdLen ←
    match found with
    | some offset => .ok offset
    | none => strlen rest
  let command ← (CharArray.zero 8).memcpy rest (clamp 8 cmdLen)
  match found with
  | none => .ok (command, .zero 64)
  | some offset => do
      let afterComma ← advance rest (offset + 1)
      let argsLen ← strlen afterComma
      let args ← (CharArray.zero 64).memcpy afterComma (clamp 64 argsLen)
      .ok (command, args)

/-- `sscanf(p, "%3d", &code)` on a `code` that is zero. -/
def scanCode (p : List UInt8) : Except OutOfBounds Int := do
  let s ← readString p
  .ok ((Scanf.scanInt 3 s).getD 0)

/-- What a classification returns: the frame that its constructor call makes. -/
abbrev Classified : Type := Except OutOfBounds (Except Fault (RawSum model))

def classifyLine (line : List UInt8) : Classified := do
  let write ← strncmp line (literal ['W', ','] ++ [0]) 2
  if write = 0 then do
    let rest ← advance line 2
    let (command, args) ← requestFields rest
    .ok (newWriteRequest { command := command, args := args })
  else do
    let read ← strncmp line (literal ['R', ','] ++ [0]) 2
    if read = 0 then do
      let rest ← advance line 2
      let (command, args) ← requestFields rest
      .ok (newReadRequest { command := command, args := args })
    else do
      let ng ← strncmp line (literal ['N', 'G', ',', 'T'] ++ [0]) 4
      if ng = 0 then do
        let rest ← advance line 4
        let code ← scanCode rest
        .ok (newNgReply { errorCode := code })
      else do
        -- whatever is none of these is taken to be an OK reply
        let len ← strlen line
        let payload ← (CharArray.zero 64).memcpy line (clamp 64 len)
        .ok (newOkReply { payload := payload })

end ProtocolFrame

end GenericSumType
