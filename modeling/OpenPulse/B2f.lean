import OpenPulse.ByteCodec

/-! The Winlink B2F session between a sending station (ISS) and a receiving one (IRS):
`openpulse-b2f/src`. Control frames are text lines, messages are gzip blobs; the gzip
streams are a parameter. A call that fails may still have changed the session, so every
call returns the session it leaves behind beside its result. -/
namespace OpenPulse.B2f
open ByteCodec

inductive ProposalType where
  | c | d
  deriving DecidableEq, Repr

inductive FsAnswer where
  | accept | reject | defer
  deriving DecidableEq, Repr

inductive B2fFrame where
  | fc (proposalType : ProposalType) (mid : String) (size : UInt32) (date : String)
  | fs (answers : List FsAnswer)
  | ff
  | fq
  deriving DecidableEq, Repr

inductive B2fError where
  | invalidBanner (text : String)
  | invalidFrame (text : String)
  | compression (text : String)
  | invalidState
  | proposalCountMismatch (expected got : Nat)
  | tooManyFrames (limit : Nat)
  | sessionTooLarge (limit : Nat)
  deriving DecidableEq, Repr

def B2fError.message : B2fError → String
  | invalidBanner text => "invalid banner: " ++ text
  | invalidFrame text => "invalid frame: " ++ text
  | compression text => "compression error: " ++ text
  | invalidState => "invalid session state"
  | proposalCountMismatch expected got =>
    "proposal/answer count mismatch: expected " ++ toString expected ++ ", got " ++ toString got
  | tooManyFrames limit => "session exceeded " ++ toString limit ++ " inbound frames — aborting (possible flood)"
  | sessionTooLarge limit =>
    "session decompressed output exceeded " ++ toString limit ++ " bytes — aborting (possible amplification)"

def isLineEnd (c : Char) : Bool := c == '\r' || c == '\n'

def trimEnd (p : Char → Bool) (cs : List Char) : List Char := (cs.reverse.dropWhile p).reverse

def splitN (sep : Char) : Nat → List Char → List (List Char)
  | 0, _ => []
  | 1, cs => [cs]
  | n + 2, cs =>
    match cs.dropWhile (· != sep) with
    | [] => [cs]
    | _::rest => cs.takeWhile (· != sep) :: splitN sep (n + 1) rest

/-- Upper case, as far as the keywords of the frames can tell: besides the ASCII
letters, only the long s and the double-f ligature can spell a part of one. -/
def toUppercase (cs : List Char) : List Char :=
  cs.flatMap fun c => if c = 'ſ' then ['S'] else if c = 'ﬀ' then ['F','F'] else [c.toUpper]

def digitsValue (cs : List Char) : Nat := cs.foldl (fun n c => n * 10 + (c.toNat - 48)) 0

/-- An optional plus sign and at least one digit, below 2³². -/
def parseU32 (cs : List Char) : Option UInt32 :=
  let ds := match cs with | '+'::ds => ds | ds => ds
  if ds ≠ [] ∧ ds.all Char.isDigit ∧ digitsValue ds < 2 ^ 32 then some (UInt32.ofNat (digitsValue ds)) else none

def isWhitespace (c : Char) : Bool :=
  let n := c.toNat
  (9 ≤ n && n ≤ 13) || n == 0x20 || n == 0x85 || n == 0xA0 || n == 0x1680 || (0x2000 ≤ n && n ≤ 0x200A) || n == 0x2028 ||
    n == 0x2029 || n == 0x202F || n == 0x205F || n == 0x3000

def trim (cs : List Char) : List Char := trimEnd isWhitespace (cs.dropWhile isWhitespace)

def ProposalType.letter : ProposalType → Char
  | c => 'C'
  | d => 'D'

def FsAnswer.letter : FsAnswer → Char
  | accept => '+'
  | reject => '-'
  | defer => '='

def encode : B2fFrame → String
  | .fc t mid size date =>
    "FC " ++ String.ofList [t.letter] ++ " " ++ mid ++ " " ++ toString size.toNat ++ " " ++ date ++ "\r"
  | .fs answers => "FS " ++ String.ofList (answers.map FsAnswer.letter) ++ "\r"
  | .ff => "FF\r"
  | .fq => "FQ\r"

def proposalTypeOf (cs : List Char) : Except B2fError ProposalType :=
  if cs = ['C'] ∨ cs = ['c'] then .ok .c
  else if cs = ['D'] ∨ cs = ['d'] then .ok .d
  else .error (.invalidFrame ("unknown type: " ++ String.ofList cs))

def answerOf (c : Char) : Except B2fError FsAnswer :=
  if c = '+' then .ok .accept
  else if c = '-' then .ok .reject
  else if c = '=' then .ok .defer
  else .error (.invalidFrame ("bad answer char: " ++ String.ofList [c]))

def decode (line : String) : Except B2fError B2fFrame :=
  let trimmed := trimEnd isLineEnd line.toList
  let parts := splitN ' ' 5 trimmed
  let name := toUppercase (parts.getD 0 [])
  if name = ['F','C'] ∧ 5 ≤ parts.length then do
    let t ← proposalTypeOf (parts.getD 1 [])
    match parseU32 (parts.getD 3 []) with
    | some size => return .fc t (String.ofList (parts.getD 2 [])) size (String.ofList (parts.getD 4 []))
    | none => throw (.invalidFrame "bad size")
  else if name = ['F','S'] ∧ 2 ≤ parts.length then do
    let answers ← (parts.getD 1 []).mapM answerOf
    return .fs answers
  else if name = ['F','F'] then .ok .ff
  else if name = ['F','Q'] then .ok .fq
  else .error (.invalidFrame (String.ofList trimmed))

structure Banner where
  version : String
  sessionKey : String
  deriving DecidableEq, Repr

def bracketed (cs : List Char) : Bool := cs.head? == some '[' && cs.getLast? == some ']'

def Banner.decode (line : String) : Except B2fError Banner :=
  let trimmed := trim line.toList
  if bracketed trimmed = false then .error (.invalidBanner (String.ofList trimmed))
  else
    let parts := splitN '-' 5 (trimmed.drop 1).dropLast
    if parts.length < 5 ∨ parts.getD 0 [] ≠ ['W','L','2','K'] then .error (.invalidBanner (String.ofList trimmed))
    else .ok ⟨String.ofList (parts.getD 1 [] ++ '-'::(parts.getD 2 [] ++ '-'::parts.getD 3 [])),String.ofList (parts.getD 4 [])⟩

structure AttachmentInfo where
  name : String
  size : UInt32
  deriving DecidableEq, Repr

structure WlHeader where
  mid : String
  date : String
  sender : String
  recipients : List String
  subject : String
  size : UInt32
  body : UInt32
  attachments : List AttachmentInfo
  deriving DecidableEq, Repr

def WlHeader.encode (h : WlHeader) : Bytes :=
  utf8 ("Mid: " ++ h.mid ++ "\r\n" ++ "Date: " ++ h.date ++ "\r\n" ++ "From: " ++ h.sender ++ "\r\n" ++
    String.join (h.recipients.map fun addr => "To: " ++ addr ++ "\r\n") ++
    "Subject: " ++ h.subject ++ "\r\n" ++ "Mbo: OPNPLS\r\n" ++ "Body: " ++ toString h.body.toNat ++ "\r\n" ++
    "File: " ++ toString h.size.toNat ++ "\r\n" ++
    String.join (h.attachments.map fun att => "File: " ++ toString att.size.toNat ++ " " ++ att.name ++ "\r\n") ++ "\r\n")

/-- The gzip streams: `readToEnd n` reads a decoder until it ends or has given `n` bytes. -/
structure Gzip where
  compress : Bytes → Except String Bytes
  readToEnd : Nat → Bytes → Except String Bytes

def maxUncompressed : Nat := 16 * 1024 * 1024

def compressGzip (gz : Gzip) (data : Bytes) : Except B2fError Bytes := (gz.compress data).mapError B2fError.compression

def decompressGzip (gz : Gzip) (data : Bytes) : Except B2fError Bytes := do
  let out ← (gz.readToEnd (maxUncompressed + 1) data).mapError B2fError.compression
  if maxUncompressed < out.length then
    throw (.compression ("decompressed gzip exceeds limit (" ++ toString maxUncompressed ++ " bytes)"))
  else return out

inductive SessionRole where
  | iss | irs
  deriving DecidableEq, Repr

inductive SessionState where
  | handshake | proposalExchange | transfer | done
  deriving DecidableEq, Repr

structure Proposal where
  fc : B2fFrame
  compressedData : Bytes
  answer : Option FsAnswer
  deriving DecidableEq, Repr

def maxProposals : Nat := 32
def maxSessionFrames : Nat := 8192
def maxSessionDecompressed : Nat := 32 * 1024 * 1024

structure B2fSession where
  role : SessionRole
  proposals : List Proposal := []
  overflowRejected : Nat := 0
  framesSeen : Nat := 0
  state : SessionState := .handshake
  pendingData : List Bytes := []
  receiveIdx : Nat := 0
  decompressedTotal : Nat := 0
  deriving DecidableEq, Repr

namespace B2fSession

def queueMessage (gz : Gzip) (s : B2fSession) (header : WlHeader) (body : Bytes) : Except B2fError B2fSession := do
  let compressed ← compressGzip gz (header.encode ++ body)
  let fc := B2fFrame.fc .d header.mid (UInt32.ofNat compressed.length) header.date
  return { s with proposals := s.proposals ++ [⟨fc,compressed,none⟩] }

def answerTo : ProposalType → FsAnswer
  | .d => .accept
  | .c => .reject

def handleProposal (s : B2fSession) (line : String) : B2fSession × Except B2fError (List String) :=
  if bracketed (trimEnd isLineEnd line.toList) then (s,.ok [])
  else match decode line with
  | .error e => (s,.error e)
  | .ok f => match s.role, f with
    | .iss, .fs answers =>
      if answers.length ≠ s.proposals.length then (s,.error (.proposalCountMismatch s.proposals.length answers.length))
      else
        let staged := (s.proposals.zip answers).filterMap fun (p,answer) =>
          if answer = .accept then some p.compressedData else none
        let pendingData := s.pendingData ++ staged
        ({ s with
            proposals := (s.proposals.zip answers).map fun (p,answer) => { p with answer := some answer }
            pendingData
            state := if pendingData = [] then .done else .transfer },.ok [])
    | .irs, .fc t mid size date =>
      if s.proposals.length < maxProposals then
        ({ s with proposals := s.proposals ++ [⟨.fc t mid size date,[],some (answerTo t)⟩] },.ok [])
      else ({ s with overflowRejected := s.overflowRejected + 1 },.ok [])
    | .irs, .ff =>
      let answers := s.proposals.map (fun p => p.answer.getD .reject) ++ List.replicate s.overflowRejected .reject
      ({ s with state := .transfer },.ok [encode (.fs answers)])
    | _, .fq => ({ s with state := .done },.ok [])
    | _, _ => (s,.ok [])

def handleHandshake (s : B2fSession) (line : String) : B2fSession × Except B2fError (List String) :=
  let trimmed := trimEnd isLineEnd line.toList
  match s.role with
  | .iss =>
    if bracketed trimmed = false then (s,.error (.invalidBanner (String.ofList trimmed)))
    else match Banner.decode line with
    | .error e => (s,.error e)
    | .ok _ =>
      ({ s with state := .proposalExchange },.ok (s.proposals.map (fun p => encode p.fc) ++ [encode .ff]))
  | .irs =>
    if bracketed trimmed then match Banner.decode line with
      | .error e => (s,.error e)
      | .ok _ => ({ s with state := .proposalExchange },.ok [])
    else handleProposal { s with state := .proposalExchange } line

def handleLine (s : B2fSession) (line : String) : B2fSession × Except B2fError (List String) :=
  let s := { s with framesSeen := s.framesSeen + 1 }
  if maxSessionFrames < s.framesSeen then (s,.error (.tooManyFrames maxSessionFrames))
  else match s.state with
  | .handshake => handleHandshake s line
  | .proposalExchange => handleProposal s line
  | .transfer => ({ s with state := .done },.ok [])
  | .done => (s,.ok [])

def drainPendingData (s : B2fSession) : B2fSession × List Bytes :=
  ({ s with pendingData := [], state := if s.state = .transfer then .done else s.state },s.pendingData)

def acceptedCount (s : B2fSession) : Nat := s.proposals.countP fun p => p.answer = some .accept

def receiveData (gz : Gzip) (s : B2fSession) (data : Bytes) : B2fSession × Except B2fError Bytes :=
  if s.state ≠ .transfer then (s,.error .invalidState)
  else match s.proposals[s.receiveIdx]? with
  | none => (s,.error .invalidState)
  | some proposal => match proposal.fc with
    | .fc t _ _ _ =>
      -- the index and the state move on before the data is looked at
      let receiveIdx := s.receiveIdx + 1
      let s := { s with receiveIdx, state := if s.proposals.length ≤ receiveIdx then .done else s.state }
      match t with
      | .c => (s,.error (.compression "proposal type C (LZHUF) is not supported"))
      | .d => match decompressGzip gz data with
        | .error e => (s,.error e)
        | .ok out =>
          -- a session holds 32 messages of 16 MiB at most, so the 64-bit sum does not saturate
          let s := { s with decompressedTotal := s.decompressedTotal + out.length }
          if maxSessionDecompressed < s.decompressedTotal then (s,.error (.sessionTooLarge maxSessionDecompressed))
          else (s,.ok out)
    | _ => (s,.error .invalidState)

end B2fSession

end OpenPulse.B2f
