import CdcBadge.Bytes

/-!
# The HTML tokenizer

Bytes arrive one by one; tags are collected whole, text in pieces. The names of the open elements are on a
bounded stack, and the content of scripts and styles is passed over until their end tag.
-/

namespace CdcBadge.Html

def kTextCap : ℕ:=512
def kTagCap : ℕ:=1024
def kStackMax : ℕ:=32
def kRawNameMax : ℕ:=16
/-- `AttrList::kMax` -/
def kAttrMax : ℕ:=24

def lc (c : UInt8) : UInt8:=if 65 ≤ c && c ≤ 90 then c+32 else c

def isWs (c : UInt8) : Bool:=c == 32 || c == 9 || c == 10 || c == 13 || c == 12

def isNameChar (c : UInt8) : Bool:=
  (97 ≤ c && c ≤ 122) || (65 ≤ c && c ≤ 90) || (48 ≤ c && c ≤ 57) || c == 45 || c == 58 || c == 95

def ieq (a b : Bytes) : Bool:=a.map lc == b.map lc

def voidNames : List Bytes:=
  ["area","base","br","col","embed","hr","img","input","link","meta","param","source","track","wbr"].map
    fun s=>s.toUTF8.toList

def isVoid (name : Bytes) : Bool:=voidNames.any (ieq name ·)

def isRaw (name : Bytes) : Bool:=ieq name "script".toUTF8.toList || ieq name "style".toUTF8.toList

/-- An attribute; without a value its pointer is null. -/
structure Attr where
  name : Bytes
  value : Option Bytes
  deriving DecidableEq

inductive Event
  | startTag (name : Bytes) (attrs : List Attr) (selfClosing : Bool)
  | endTag (name : Bytes)
  | text (bytes : Bytes)
  deriving DecidableEq

inductive Mode | text | inTag | comment | rawText
  deriving DecidableEq

structure State where
  state : Mode:=.text
  textBuf : Bytes:=[]
  tagBuf : Bytes:=[]
  tagQuote : UInt8:=0
  commentDashes : ℕ:=0
  rawName : Bytes:=[]
  rawClosePos : ℕ:=0
  /-- `stack_`, the innermost element first. -/
  stack : List Bytes:=[]
  /-- What the sink received, each event with the stack that it finds. -/
  log : List (Event × List Bytes):=[]

/-- `inside` with a stack. -/
def insideOf (stack : List Bytes) (name : Bytes) : Bool:=stack.any (ieq · name)

namespace State

variable (s : State)

def inside (name : Bytes) : Bool:=insideOf s.stack name

def emit (e : Event) : State:={s with log:=s.log++[(e,s.stack)]}

def flushText : State:=if s.textBuf=[] then s else {s.emit (.text s.textBuf) with textBuf:=[]}

def finish : State:=s.flushText

def pushTag (name : Bytes) : State:=
  if kStackMax ≤ s.stack.length then s else {s with stack:=name.take (kRawNameMax-1)::s.stack}

def popTag (name : Bytes) : State:=
  match s.stack.dropWhile fun t=>!(t.length == name.length && ieq name t) with
  | []=>s
  | _::rest=>{s with stack:=rest}

end State

def scanValue : Bytes→Option Bytes × Bytes
  | []=>(none,[])
  | c::rest=>
    if c≠61 then (none,c::rest)
    else match rest.dropWhile isWs with
      | []=>(some [],[])
      | q::inner=>
        if q=34 ∨ q=39 then (some (inner.takeWhile (· != q)),(inner.dropWhile (· != q)).drop 1)
        else
          let unquoted:=fun c=>!isWs c && c != 62
          (some ((q::inner).takeWhile unquoted),(q::inner).dropWhile unquoted)

/-- The attributes of a start tag, and whether there was a slash between them. Every round takes a byte. -/
def scanAttrs : ℕ→Bytes → List Attr→Bool → List Attr × Bool
  | 0, _, attrs, selfClosing=>(attrs,selfClosing)
  | fuel+1, buf, attrs, selfClosing=>
    match buf.dropWhile isWs with
    | []=>(attrs,selfClosing)
    | c::rest=>
      if c=47 then scanAttrs fuel rest attrs true
      else if !isNameChar c then scanAttrs fuel rest attrs selfClosing
      else
        let name:=(c::rest).takeWhile isNameChar
        let (value,left):=scanValue (((c::rest).dropWhile isNameChar).dropWhile isWs)
        scanAttrs fuel left (if attrs.length < kAttrMax then attrs++[⟨name,value⟩] else attrs) selfClosing

namespace State

variable (s : State)

def emitEndTag (name : Bytes) : State:=(s.popTag name).emit (.endTag name)

def emitStartTag (name : Bytes) (attrs : List Attr) (selfClosing : Bool) : State:=
  let pushed:=if !isVoid name && !selfClosing then s.pushTag name else s
  let sent:=pushed.emit (.startTag name attrs selfClosing)
  if isRaw name && !selfClosing then
    {sent with state:=.rawText,rawClosePos:=0,rawName:=name.take (kRawNameMax-1)}
  else sent

def emitBufferedTag : State:=
  match s.tagBuf.dropWhile isWs with
  | []=>s
  | c::rest=>
    let endTag:=c == 47
    let body:=if endTag then rest else c::rest
    if body.head? = some 33 ∨ body.head? = some 63 then s
    else
      let name:=(body.takeWhile isNameChar).map lc
      if name=[] then s
      else if endTag then s.emitEndTag name
      else
        let buf:=body.dropWhile isNameChar
        let (attrs,selfClosing):=scanAttrs buf.length buf [] false
        s.emitStartTag name attrs selfClosing

def bufferTag (c : UInt8) : State:=if s.tagBuf.length < kTagCap then {s with tagBuf:=s.tagBuf++[c]} else s

def textByte (c : UInt8) : State:=
  if c=60 then {s.flushText with state:=.inTag,tagBuf:=[],tagQuote:=0}
  else
    let t:=if kTextCap ≤ s.textBuf.length then s.flushText else s
    {t with textBuf:=t.textBuf++[c]}

def commentByte (c : UInt8) : State:=
  if c=45 then (if s.commentDashes < 2 then {s with commentDashes:=s.commentDashes+1} else s)
  else if c=62 ∧ 2 ≤ s.commentDashes then {s with state:=.text,tagBuf:=[],commentDashes:=0}
  else {s with commentDashes:=0}

def tagByte (c : UInt8) : State:=
  if s.tagBuf=[33,45,45] then {s with state:=.comment,commentDashes:=0}.commentByte c
  else if s.tagQuote≠0 then (if c=s.tagQuote then {s with tagQuote:=0} else s).bufferTag c
  else if c=34 ∨ c=39 then {s with tagQuote:=c}.bufferTag c
  else if c=62 then
    let t:=s.emitBufferedTag
    {t with state:=if t.state=.inTag then .text else t.state,tagBuf:=[]}
  else s.bufferTag c

/-- The byte that would go on with `</name`. -/
def want : UInt8:=
  match s.rawClosePos with
  | 0=>60
  | 1=>47
  | n+2=>s.rawName.getD n 0

def rawByte (c : UInt8) : State:=
  let restart:=if c=60 then 1 else 0
  if s.rawClosePos < 2+s.rawName.length then
    {s with rawClosePos:=if lc c=lc s.want then s.rawClosePos+1 else restart}
  else if c=62 then {s.emitEndTag s.rawName with state:=.text,tagBuf:=[],rawClosePos:=0}
  else if isWs c || c == 47 then s
  else {s with rawClosePos:=restart}

def byte (c : UInt8) : State:=
  match s.state with
  | .text=>s.textByte c
  | .inTag=>s.tagByte c
  | .comment=>s.commentByte c
  | .rawText=>s.rawByte c

def feed (bytes : Bytes) : State:=bytes.foldl byte s

end State

def tokenize (chunks : List Bytes) : State:=(chunks.foldl State.feed {}).finish

end CdcBadge.Html
