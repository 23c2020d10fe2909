import CdcBadge.HtmlTokenizer
import Mathlib.Tactic.Common

/-!
# Documents and what the tokenizer makes of them

The tokenizer gives back the tags and the text of a document in their order, however it is cut into chunks.
A start tag is on the stack of open elements when the sink receives it.
-/

namespace CdcBadge.Html

/-- An attribute with the quote that its value is written in. -/
structure QuotedAttr where
  name : Bytes
  quote : UInt8
  value : Bytes

inductive Node
  | text (bytes : Bytes)
  | comment (bytes : Bytes)
  /-- A void element, with a slash before the end of its tag or without. -/
  | void (name : Bytes) (attrs : List QuotedAttr) (slash : Bool)
  /-- A script or a style. -/
  | raw (name : Bytes) (attrs : List QuotedAttr) (content : Bytes)
  | element (name : Bytes) (attrs : List QuotedAttr) (children : List Node)

def QuotedAttr.serialize (a : QuotedAttr) : Bytes:=32::a.name++61::a.quote::a.value++[a.quote]

def startText (name : Bytes) (attrs : List QuotedAttr) (slash : Bool) : Bytes:=
  name++attrs.flatMap QuotedAttr.serialize++if slash then [47] else []

def startTag (name : Bytes) (attrs : List QuotedAttr) (slash : Bool) : Bytes:=60::startText name attrs slash++[62]

def endTag (name : Bytes) : Bytes:=60::47::name++[62]

namespace Node

mutual

def serialize : Node→Bytes
  | text bytes=>bytes
  | comment bytes=>[60,33,45,45]++bytes++[45,45,62]
  | void name attrs slash=>startTag name attrs slash
  | raw name attrs content=>startTag name attrs false++content++endTag name
  | element name attrs children=>startTag name attrs false++serializeAll children++endTag name

def serializeAll : List Node→Bytes
  | []=>[]
  | n::ns=>n.serialize++serializeAll ns

end

end Node

/-- A tag, or a character of text. -/
inductive Piece
  | start (name : Bytes) (attrs : List Attr) (selfClosing : Bool)
  | finish (name : Bytes)
  | char (c : UInt8)

def QuotedAttr.attr (a : QuotedAttr) : Attr:=⟨a.name,some a.value⟩

namespace Node

mutual

/-- The tags and the text of a node, each with the names of its ancestors, the innermost first. -/
def pieces (ancestors : List Bytes) : Node → List (Piece × List Bytes)
  | text bytes=>bytes.map fun c=>(.char c,ancestors)
  | comment _=>[]
  | void name attrs slash=>[(.start (name.map lc) (attrs.map QuotedAttr.attr) slash,ancestors)]
  | raw name attrs _=>
    [(.start (name.map lc) (attrs.map QuotedAttr.attr) false,ancestors),(.finish (name.map lc),ancestors)]
  | element name attrs children=>
    (.start (name.map lc) (attrs.map QuotedAttr.attr) false,ancestors) ::
      piecesAll (name.map lc::ancestors) children++[(.finish (name.map lc),ancestors)]

def piecesAll (ancestors : List Bytes) : List Node → List (Piece × List Bytes)
  | []=>[]
  | n::ns=>n.pieces ancestors++piecesAll ancestors ns

end

end Node

def expand : Event × List Bytes → List (Piece × List Bytes)
  | (.startTag name attrs selfClosing,stack)=>[(.start name attrs selfClosing,stack)]
  | (.endTag name,stack)=>[(.finish name,stack)]
  | (.text bytes,stack)=>bytes.map fun c=>(.char c,stack)

/-- The elements that are open at a piece: its ancestors, and the element itself where its start tag opens it. -/
def opened : Piece × List Bytes → List Bytes
  | (.start name _ _,ancestors)=>if isVoid name then ancestors else name::ancestors
  | (_,ancestors)=>ancestors

/-- The sink receives the pieces of the document, and `inside` is true at each of them of the elements in `openAt`. -/
def Delivers (openAt : Piece × List Bytes → List Bytes) (doc : List Node) (chunks : List Bytes) : Prop:=
  ∀ name, ((tokenize chunks).log.flatMap expand).map (fun p=>(p.1,insideOf p.2 name))
    = (Node.piecesAll [] doc).map fun p=>(p.1,(openAt p).any (ieq · name))

/-- Somewhere the content ends the element: `</name`, blanks or slashes, and `>`. -/
def Closes (name content : Bytes) : Prop:=
  ∃ before tag gap after, content=before++tag++gap++62::after ∧ tag.map lc=60::47::name.map lc ∧
    ∀ c∈gap, isWs c=true ∨ c=47

structure IsName (name : Bytes) : Prop where
  nonempty : name≠[]
  chars : ∀ c∈name, isNameChar c=true

structure QuotedAttr.Fits (a : QuotedAttr) : Prop where
  isName : IsName a.name
  quote : a.quote=34 ∨ a.quote=39
  value : a.quote ∉ a.value

structure TagFits (name : Bytes) (attrs : List QuotedAttr) (slash : Bool) : Prop where
  isName : IsName name
  short : name.length < kRawNameMax
  fits : ∀ a∈attrs, a.Fits
  few : attrs.length ≤ kAttrMax
  room : (startText name attrs slash).length ≤ kTagCap

/-- At most so many elements are open at once, and everything is within its bounds. -/
inductive Node.Fits : ℕ→Node→Prop
  | text {d : ℕ} {bytes : Bytes} (htext : (60 : UInt8) ∉ bytes) : Fits d (.text bytes)
  | comment {d : ℕ} {bytes : Bytes} (hdashes : ¬[45,45] <:+: bytes) : Fits d (.comment bytes)
  | void {d : ℕ} {name : Bytes} {attrs : List QuotedAttr} {slash : Bool} (htag : TagFits name attrs slash)
      (hname : isVoid name=true) : Fits d (.void name attrs slash)
  | raw {d : ℕ} {name : Bytes} {attrs : List QuotedAttr} {content : Bytes} (htag : TagFits name attrs false)
      (hname : isRaw name=true) (hcontent : ¬Closes name content) : Fits (d+1) (.raw name attrs content)
  | element {d : ℕ} {name : Bytes} {attrs : List QuotedAttr} {children : List Node} (htag : TagFits name attrs false)
      (hvoid : isVoid name=false) (hraw : isRaw name=false) (hchildren : ∀ n∈children, Fits d n) :
      Fits (d+1) (.element name attrs children)

section Names

theorem lc_lc (c : UInt8) : lc (lc c)=lc c:=by
  apply forall_byte (P:=fun c=>lc (lc c)=lc c)
  decide +kernel

theorem isNameChar_lc (c : UInt8) : isNameChar (lc c)=isNameChar c:=by
  apply forall_byte (P:=fun c=>isNameChar (lc c)=isNameChar c)
  decide +kernel

theorem isNameChar_plain (c : UInt8) (h : isNameChar c=true) :
    c≠60 ∧ c≠62 ∧ c≠34 ∧ c≠39 ∧ c≠33 ∧ c≠63 ∧ c≠47 ∧ c≠61 ∧ isWs c=false:=by
  revert h
  apply forall_byte (P:=fun c=>isNameChar c=true →
    c≠60 ∧ c≠62 ∧ c≠34 ∧ c≠39 ∧ c≠33 ∧ c≠63 ∧ c≠47 ∧ c≠61 ∧ isWs c=false)
  decide +kernel

theorem map_lc_lc (name : Bytes) : (name.map lc).map lc=name.map lc:=by
  rw [List.map_map]
  exact List.map_congr_left fun c _=>lc_lc c

theorem ieq_lower (name other : Bytes) : ieq (name.map lc) other=ieq name other:=by
  unfold ieq
  rw [map_lc_lc]

theorem ieq_self (name : Bytes) : ieq name name=true:=beq_self_eq_true _

theorem isVoid_lower (name : Bytes) : isVoid (name.map lc)=isVoid name:=by
  unfold isVoid
  simp only [ieq_lower]

theorem isRaw_lower (name : Bytes) : isRaw (name.map lc)=isRaw name:=by
  unfold isRaw
  simp only [ieq_lower]

end Names

section Feeding

theorem feed_nil (s : State) : s.feed []=s:=rfl

theorem feed_cons (s : State) (c : UInt8) (bytes : Bytes) : s.feed (c::bytes)=(s.byte c).feed bytes:=rfl

theorem feed_append (s : State) (xs ys : Bytes) : s.feed (xs++ys)=(s.feed xs).feed ys:=List.foldl_append

theorem feed_chunks (s : State) (chunks : List Bytes) : chunks.foldl State.feed s=s.feed chunks.flatten:=by
  induction chunks generalizing s with
  | nil=>rfl
  | cons chunk chunks ih=>
    rw [List.foldl_cons,ih,List.flatten_cons,feed_append]

def State.seen (s : State) : List (Piece × List Bytes):=s.log.flatMap expand++s.textBuf.map fun c=>(.char c,s.stack)

theorem flushText_seen (s : State) : s.flushText.seen=s.seen:=by
  unfold State.flushText
  split_ifs with hempty
  · rfl
  · unfold State.seen State.emit
    simp [expand]

theorem flushText_textBuf (s : State) : s.flushText.textBuf=[]:=by
  unfold State.flushText
  split_ifs with hempty
  · exact hempty
  · rfl

theorem flushText_stack (s : State) : s.flushText.stack=s.stack:=by
  unfold State.flushText
  split_ifs <;> rfl

theorem flushText_state (s : State) : s.flushText.state=s.state:=by
  unfold State.flushText
  split_ifs <;> rfl

/-- From between two tags the bytes lead back between tags, with these pieces received and these elements open. -/
def Reads (bytes : Bytes) (stack stack' : List Bytes) (ps : List (Piece × List Bytes)) : Prop:=
  ∀ s : State, s.state=.text → s.stack=stack →
    (s.feed bytes).state=.text ∧ (s.feed bytes).stack=stack' ∧ (s.feed bytes).seen=s.seen++ps

variable {xs ys : Bytes} {stack stack' stack'' : List Bytes} {ps qs : List (Piece × List Bytes)}

theorem Reads.nil (stack : List Bytes) : Reads [] stack stack []:=
  fun _ hstate hstack=>⟨hstate,hstack,(List.append_nil _).symm⟩

theorem Reads.append (hx : Reads xs stack stack' ps) (hy : Reads ys stack' stack'' qs) :
    Reads (xs++ys) stack stack'' (ps++qs):=by
  intro s hstate hstack
  obtain ⟨hstate',hstack',hseen'⟩:=hx s hstate hstack
  obtain ⟨hstate'',hstack'',hseen''⟩:=hy _ hstate' hstack'
  rw [feed_append]
  refine ⟨hstate'',hstack'',?_⟩
  rw [hseen'',hseen',List.append_assoc]

end Feeding

section TextAndComments

theorem reads_char (c : UInt8) (hc : c≠60) (stack : List Bytes) : Reads [c] stack stack [(.char c,stack)]:=by
  intro s hstate hstack
  have hbyte : s.feed [c]=s.textByte c:=by
    rw [feed_cons,feed_nil]
    unfold State.byte
    rw [hstate]
  have hadd : ∀ t : State, t.state=.text→t.stack=stack→t.seen=s.seen →
      ({t with textBuf:=t.textBuf++[c]} : State).state=.text ∧
        ({t with textBuf:=t.textBuf++[c]} : State).stack=stack ∧
        ({t with textBuf:=t.textBuf++[c]} : State).seen=s.seen++[(.char c,stack)]:=by
    intro t ht hts hseen
    refine ⟨ht,hts,?_⟩
    rw [← hseen,← hts]
    unfold State.seen
    simp
  rw [hbyte]
  unfold State.textByte
  rw [if_neg hc]
  dsimp only
  split_ifs with hfull
  · exact hadd _ (by rw [flushText_state,hstate]) (by rw [flushText_stack,hstack]) (flushText_seen s)
  · exact hadd _ hstate hstack rfl

theorem reads_text (bytes : Bytes) (h : (60 : UInt8) ∉ bytes) (stack : List Bytes) :
    Reads bytes stack stack (bytes.map fun c=>(.char c,stack)):=by
  induction bytes with
  | nil=>exact Reads.nil stack
  | cons c bytes ih=>
    obtain ⟨hc,hrest⟩:=not_or.mp (fun hmem=>h (List.mem_cons.mpr hmem))
    exact (reads_char c (Ne.symm hc) stack).append (ih hrest)

theorem byte_bracket {s : State} (hstate : s.state=.text) :
    s.byte 60={s.flushText with state:=.inTag,tagBuf:=[],tagQuote:=0}:=by
  unfold State.byte
  rw [hstate]
  rfl

theorem feed_comment (bytes : Bytes) (hdashes : ¬[45,45] <:+: bytes) (s : State) (hstate : s.state=.comment)
    (hbegun : s.commentDashes=0 ∨ s.commentDashes=1 ∧ bytes.head? ≠ some 45) :
    ∃ d ≤ 1, s.feed bytes={s with commentDashes:=d}:=by
  induction bytes generalizing s with
  | nil=>exact ⟨s.commentDashes,by omega,rfl⟩
  | cons c bytes ih=>
    have hrest : ¬[45,45] <:+: bytes:=fun hpart=>hdashes (hpart.trans (List.suffix_cons c bytes).isInfix)
    have hbyte : s.byte c=s.commentByte c:=by
      unfold State.byte
      rw [hstate]
    rw [feed_cons,hbyte]
    unfold State.commentByte
    by_cases hc : c=45
    · have hzero : s.commentDashes=0:=by
        rcases hbegun with hzero | ⟨-,hhead⟩
        · exact hzero
        · exact absurd (by rw [List.head?_cons,hc]) hhead
      have hnext : bytes.head? ≠ some 45:=by
        intro hhead
        obtain ⟨rest,rfl⟩:=List.head?_eq_some_iff.mp hhead
        exact hdashes ⟨[],rest,by rw [hc]; rfl⟩
      rw [if_pos hc,if_pos (by omega)]
      exact ih hrest {s with commentDashes:=s.commentDashes+1} hstate (Or.inr ⟨by simp [hzero],hnext⟩)
    · rw [if_neg hc,if_neg (by omega)]
      exact ih hrest {s with commentDashes:=0} hstate (Or.inl rfl)

theorem feed_commentEnd (s : State) (hstate : s.state=.comment) (hdashes : s.commentDashes ≤ 1) :
    s.feed [45,45,62]={s with state:=.text,tagBuf:=[],commentDashes:=0}:=by
  have hbyte : ∀ (t : State) (c : UInt8), t.state=.comment→t.byte c=t.commentByte c:=by
    intro t c ht
    unfold State.byte
    rw [ht]
  have hfirst : s.commentByte 45={s with commentDashes:=s.commentDashes+1}:=by
    unfold State.commentByte
    rw [if_pos rfl,if_pos (by omega)]
  have hsecond : ({s with commentDashes:=s.commentDashes+1} : State).commentByte 45={s with commentDashes:=2}:=by
    unfold State.commentByte
    rw [if_pos rfl]
    dsimp only
    split_ifs with hone
    · have hzero : s.commentDashes=0:=by omega
      rw [hzero]
    · have hone : s.commentDashes=1:=by omega
      rw [hone]
  rw [feed_cons,feed_cons,feed_cons,feed_nil,hbyte s _ hstate,hfirst]
  rw [hbyte {s with commentDashes:=s.commentDashes+1} _ hstate,hsecond]
  rw [hbyte {s with commentDashes:=2} _ hstate]
  rfl

theorem reads_comment (bytes : Bytes) (hdashes : ¬[45,45] <:+: bytes) (stack : List Bytes) :
    Reads ([60,33,45,45]++bytes++[45,45,62]) stack stack []:=by
  intro s hstate hstack
  have hbegin : s.feed [60,33,45,45]={s.flushText with state:=.inTag,tagBuf:=[33,45,45],tagQuote:=0}:=by
    rw [feed_cons,byte_bracket hstate]
    rfl
  -- The byte after the dashes is the first that is read as one of the comment.
  have henter : ∀ c rest, (s.feed [60,33,45,45]).feed (c::rest)
      = ({s.flushText with state:=.comment,tagBuf:=[33,45,45],tagQuote:=0,commentDashes:=0} : State).feed (c::rest):=by
    intro c rest
    rw [hbegin]
    rfl
  have hrun : ∃ d, s.feed ([60,33,45,45]++bytes++[45,45,62])
      = {s.flushText with state:=.text,tagBuf:=[],tagQuote:=0,commentDashes:=d}:=by
    obtain ⟨d,hd,hbody⟩:=feed_comment bytes hdashes
      {s.flushText with state:=.comment,tagBuf:=[33,45,45],tagQuote:=0,commentDashes:=0} rfl (Or.inl rfl)
    refine ⟨0,?_⟩
    obtain ⟨c,rest,hrest⟩ : ∃ c rest, bytes++[45,45,62]=c::rest:=by
      cases bytes with
      | nil=>exact ⟨45,[45,62],rfl⟩
      | cons c bytes=>exact ⟨c,bytes++[45,45,62],rfl⟩
    rw [List.append_assoc,feed_append,hrest,henter,← hrest,feed_append,hbody,feed_commentEnd _ rfl hd]
  obtain ⟨d,hrun⟩:=hrun
  rw [hrun]
  refine ⟨rfl,by rw [← hstack]; exact flushText_stack s,?_⟩
  rw [List.append_nil]
  exact flushText_seen s

end TextAndComments

section Collecting

/-- The inside of a tag: no bracket ends it but in quotes, and every quote is closed. -/
inductive TagText : Bytes→Prop
  | nil : TagText []
  | plain {c : UInt8} {rest : Bytes} (hc : c≠34 ∧ c≠39 ∧ c≠62) (hrest : TagText rest) : TagText (c::rest)
  | quoted {q : UInt8} {value rest : Bytes} (hq : q=34 ∨ q=39) (hvalue : q ∉ value) (hrest : TagText rest) :
      TagText (q::(value++q::rest))

theorem TagText.append {xs ys : Bytes} (hx : TagText xs) (hy : TagText ys) : TagText (xs++ys):=by
  induction hx with
  | nil=>exact hy
  | plain hc hrest ih=>exact TagText.plain hc ih
  | quoted hq hvalue hrest ih=>
    rw [List.cons_append,List.append_assoc]
    exact TagText.quoted hq hvalue ih

theorem tagText_name {name : Bytes} (h : ∀ c∈name, isNameChar c=true) : TagText name:=by
  induction name with
  | nil=>exact TagText.nil
  | cons c name ih=>
    obtain ⟨-,hend,hdouble,hsingle,-⟩:=isNameChar_plain c (h c List.mem_cons_self)
    exact TagText.plain ⟨hdouble,hsingle,hend⟩ (ih fun x hx=>h x (List.mem_cons_of_mem c hx))

theorem tagText_attr {a : QuotedAttr} (h : a.Fits) : TagText a.serialize:=by
  have hvalue : TagText (a.quote::(a.value++[a.quote])):=TagText.quoted h.quote h.value TagText.nil
  have hequals : TagText (61::a.quote::(a.value++[a.quote])):=TagText.plain (by decide) hvalue
  have hname:=(tagText_name h.isName.chars).append hequals
  unfold QuotedAttr.serialize
  rw [List.append_assoc]
  exact TagText.plain (by decide) hname

theorem tagText_start {name : Bytes} {attrs : List QuotedAttr} {slash : Bool} (h : TagFits name attrs slash) :
    TagText (startText name attrs slash):=by
  have hattrs : ∀ as : List QuotedAttr, (∀ a∈as, a.Fits)→TagText (as.flatMap QuotedAttr.serialize):=by
    intro as has
    induction as with
    | nil=>exact TagText.nil
    | cons a as ih=>
      rw [List.flatMap_cons]
      exact (tagText_attr (has a List.mem_cons_self)).append (ih fun x hx=>has x (List.mem_cons_of_mem a hx))
  have hslash : TagText (if slash then [47] else []):=by
    cases slash
    · exact TagText.nil
    · exact TagText.plain (by decide) TagText.nil
  exact ((tagText_name h.isName.chars).append (hattrs attrs h.fits)).append hslash

variable {s : State}

theorem bufferTag_room (c : UInt8) (hroom : s.tagBuf.length < kTagCap) :
    s.bufferTag c={s with tagBuf:=s.tagBuf++[c]}:=if_pos hroom

theorem byte_tag (hstate : s.state=.inTag) (hhead : s.tagBuf.head? ≠ some 33) (c : UInt8) : s.byte c =
    if s.tagQuote≠0 then (if c=s.tagQuote then {s with tagQuote:=0} else s).bufferTag c
    else if c=34 ∨ c=39 then {s with tagQuote:=c}.bufferTag c
    else if c=62 then
      { s.emitBufferedTag with
        state:=if s.emitBufferedTag.state=.inTag then .text else s.emitBufferedTag.state
        tagBuf:=[] }
    else s.bufferTag c:=by
  have hno : s.tagBuf≠[33,45,45]:=by
    intro heq
    exact hhead (by rw [heq]; rfl)
  have htag : s.byte c=s.tagByte c:=by
    unfold State.byte
    rw [hstate]
  rw [htag]
  exact if_neg hno

theorem head_append {xs ys : Bytes} {c : UInt8} (h : (xs++ys).head? ≠ some c) : xs.head? ≠ some c:=by
  cases xs with
  | nil=>simp
  | cons x xs=>exact h

theorem feed_quoted {q : UInt8} (hq : q≠0) (value : Bytes) (hvalue : q ∉ value) (s : State) (hstate : s.state=.inTag)
    (hquote : s.tagQuote=q) (hhead : (s.tagBuf++value).head? ≠ some 33) (hroom : (s.tagBuf++value).length ≤ kTagCap) :
    s.feed value={s with tagBuf:=s.tagBuf++value}:=by
  induction value generalizing s with
  | nil=>
    rw [List.append_nil]
    rfl
  | cons c value ih=>
    obtain ⟨hc,hrest⟩:=not_or.mp (fun hmem=>hvalue (List.mem_cons.mpr hmem))
    have hlength : s.tagBuf.length < kTagCap:=by
      rw [List.length_append,List.length_cons] at hroom
      omega
    have hbyte : s.byte c={s with tagBuf:=s.tagBuf++[c]}:=by
      rw [byte_tag hstate (head_append hhead),if_pos (by rw [hquote]; exact hq),if_neg (by rw [hquote]; exact Ne.symm hc)]
      exact bufferTag_room c hlength
    have hsplit : s.tagBuf++c::value=s.tagBuf++[c]++value:=by rw [List.append_assoc,List.singleton_append]
    rw [feed_cons,hbyte,hsplit]
    rw [hsplit] at hhead hroom
    exact ih hrest {s with tagBuf:=s.tagBuf++[c]} hstate hquote hhead hroom

theorem feed_tagText {text : Bytes} (htext : TagText text) (s : State) (hstate : s.state=.inTag) (hquote : s.tagQuote=0)
    (hhead : (s.tagBuf++text).head? ≠ some 33) (hroom : (s.tagBuf++text).length ≤ kTagCap) :
    s.feed text={s with tagBuf:=s.tagBuf++text}:=by
  induction htext generalizing s with
  | nil=>
    rw [List.append_nil]
    rfl
  | @plain c rest hc hrest ih=>
    have hlength : s.tagBuf.length < kTagCap:=by
      rw [List.length_append,List.length_cons] at hroom
      omega
    have hbyte : s.byte c={s with tagBuf:=s.tagBuf++[c]}:=by
      rw [byte_tag hstate (head_append hhead),if_neg (by simp [hquote]),if_neg (by simp [hc.1,hc.2.1]),if_neg hc.2.2]
      exact bufferTag_room c hlength
    have hsplit : s.tagBuf++c::rest=s.tagBuf++[c]++rest:=by rw [List.append_assoc,List.singleton_append]
    rw [feed_cons,hbyte,hsplit]
    rw [hsplit] at hhead hroom
    exact ih {s with tagBuf:=s.tagBuf++[c]} hstate hquote hhead hroom
  | @quoted q value rest hq hvalue hrest ih=>
    have hq0 : q≠0:=by rcases hq with rfl | rfl <;> decide
    have hsplit : s.tagBuf++q::(value++q::rest)=s.tagBuf++[q]++value++[q]++rest:=by simp
    rw [hsplit] at hhead hroom
    have hroom' : s.tagBuf.length+1+value.length+1+rest.length ≤ kTagCap:=by
      simpa only [List.length_append,List.length_singleton] using hroom
    have hopen : s.byte q={s with tagQuote:=q,tagBuf:=s.tagBuf++[q]}:=by
      rw [byte_tag hstate (head_append (head_append (head_append (head_append hhead)))),if_neg (by simp [hquote]),if_pos hq]
      exact bufferTag_room q (by show s.tagBuf.length < _; omega)
    have hinner:=feed_quoted hq0 value hvalue {s with tagQuote:=q,tagBuf:=s.tagBuf++[q]} hstate rfl
      (head_append (head_append hhead)) (by simp only [List.length_append,List.length_singleton]; omega)
    have hclose : ({s with tagQuote:=q,tagBuf:=s.tagBuf++[q]++value} : State).byte q
        = {s with tagBuf:=s.tagBuf++[q]++value++[q]}:=by
      rw [byte_tag (by exact hstate) (head_append (head_append hhead)),if_pos hq0,if_pos rfl]
      rw [bufferTag_room q (by simp only [List.length_append,List.length_singleton]; omega)]
      dsimp only
      rw [hquote]
    rw [feed_cons,hopen,feed_append,hinner,feed_cons,hclose,hsplit]
    exact ih {s with tagBuf:=s.tagBuf++[q]++value++[q]} hstate hquote hhead hroom

end Collecting

section Scanning

theorem takeWhile_run {p : UInt8→Bool} {xs : Bytes} (hxs : ∀ c∈xs, p c=true) {c : UInt8} (hc : p c=false) (ys : Bytes) :
    (xs++c::ys).takeWhile p=xs ∧ (xs++c::ys).dropWhile p=c::ys:=by
  rw [List.takeWhile_append_of_pos hxs,List.dropWhile_append_of_pos hxs]
  simp [hc]

theorem takeWhile_whole {p : UInt8→Bool} {xs : Bytes} (hxs : ∀ c∈xs, p c=true) :
    xs.takeWhile p=xs ∧ xs.dropWhile p=[]:=by
  constructor
  · exact List.takeWhile_eq_self_iff.mpr hxs
  · exact List.dropWhile_eq_nil_iff.mpr hxs

theorem takeWhile_name {name : Bytes} (h : ∀ c∈name, isNameChar c=true) {rest : Bytes}
    (hrest : ∀ c, rest.head? = some c→isNameChar c=false) :
    (name++rest).takeWhile isNameChar=name ∧ (name++rest).dropWhile isNameChar=rest:=by
  cases rest with
  | nil=>
    rw [List.append_nil]
    exact takeWhile_whole h
  | cons c rest=>exact takeWhile_run h (hrest c rfl) rest

theorem dropWhile_head {c : UInt8} (hc : isWs c=false) (rest : Bytes) : (c::rest).dropWhile isWs=c::rest:=by
  rw [List.dropWhile_cons_of_neg (by simp [hc])]

theorem scanValue_quoted {q : UInt8} (hq : q=34 ∨ q=39) {value : Bytes} (hvalue : q ∉ value) (rest : Bytes) :
    scanValue (61::q::(value++q::rest))=(some value,rest):=by
  have hws : isWs q=false:=by rcases hq with rfl | rfl <;> decide
  have hother (c : UInt8) (hc : c∈value) : (c != q)=true:=by
    have hne : c≠q:=fun heq=>hvalue (heq ▸ hc)
    simpa using hne
  have hrun:=takeWhile_run hother (show (q != q)=false by simp) rest
  unfold scanValue
  dsimp only
  rw [if_neg (by simp),dropWhile_head hws]
  dsimp only
  rw [if_pos hq,hrun.1,hrun.2]
  rfl

theorem scanAttrs_attr {a : QuotedAttr} (h : a.Fits) (fuel : ℕ) (rest : Bytes) (acc : List Attr) (selfClosing : Bool)
    (hfew : acc.length < kAttrMax) : scanAttrs (fuel+1) (a.serialize++rest) acc selfClosing
      = scanAttrs fuel rest (acc++[a.attr]) selfClosing:=by
  obtain ⟨⟨hnonempty,hchars⟩,hquote,hvalue⟩:=h
  obtain ⟨c,name,hname⟩:=List.exists_cons_of_ne_nil hnonempty
  obtain ⟨-,-,-,-,-,-,hslash,-,hws⟩:=isNameChar_plain c (hchars c (by rw [hname]; exact List.mem_cons_self))
  have hshape : a.serialize++rest=32::(a.name++61::a.quote::(a.value++a.quote::rest)):=by
    simp [QuotedAttr.serialize]
  have hskip : (32::(a.name++61::a.quote::(a.value++a.quote::rest))).dropWhile isWs
      = a.name++61::a.quote::(a.value++a.quote::rest):=by
    rw [List.dropWhile_cons_of_pos (by decide),hname,List.cons_append,dropWhile_head hws]
  obtain ⟨htake,hdrop⟩:=takeWhile_run (p:=isNameChar) hchars (c:=61) (by decide)
    (a.quote::(a.value++a.quote::rest))
  rw [hshape,scanAttrs,hskip]
  rw [hname,List.cons_append] at htake hdrop ⊢
  dsimp only
  rw [if_neg hslash,if_neg (by simp [hchars c (by rw [hname]; exact List.mem_cons_self)]),htake,hdrop,
    dropWhile_head (by decide),scanValue_quoted hquote hvalue]
  dsimp only
  rw [if_pos hfew,← hname]
  rfl

theorem scanAttrs_serialize {attrs : List QuotedAttr} (h : ∀ a∈attrs, a.Fits) (tail : Bytes) (fuel : ℕ) (acc : List Attr)
    (selfClosing : Bool) (hfew : acc.length+attrs.length ≤ kAttrMax) :
    scanAttrs (fuel+attrs.length) (attrs.flatMap QuotedAttr.serialize++tail) acc selfClosing
      = scanAttrs fuel tail (acc++attrs.map QuotedAttr.attr) selfClosing:=by
  induction attrs generalizing acc with
  | nil=>simp
  | cons a attrs ih=>
    rw [List.length_cons] at hfew
    rw [List.flatMap_cons,List.append_assoc,List.length_cons,← Nat.add_assoc]
    rw [scanAttrs_attr (h a List.mem_cons_self) _ _ _ _ (by omega)]
    rw [ih (fun x hx=>h x (List.mem_cons_of_mem a hx)) (acc++[a.attr]) (by
      rw [List.length_append,List.length_singleton]
      omega)]
    rw [List.map_cons,List.append_assoc,List.singleton_append]

theorem scanAttrs_nil (fuel : ℕ) (acc : List Attr) (selfClosing : Bool) : scanAttrs fuel [] acc selfClosing=(acc,selfClosing):=by
  cases fuel <;> rfl

theorem scanAttrs_start {attrs : List QuotedAttr} (h : ∀ a∈attrs, a.Fits) (hfew : attrs.length ≤ kAttrMax) (slash : Bool)
    (buf : Bytes) (hbuf : buf=attrs.flatMap QuotedAttr.serialize++if slash then [47] else []) :
    scanAttrs buf.length buf [] false=(attrs.map QuotedAttr.attr,slash):=by
  have hlong : ∀ as : List QuotedAttr, as.length ≤ (as.flatMap QuotedAttr.serialize).length:=by
    intro as
    induction as with
    | nil=>simp
    | cons a as ih=>
      rw [List.flatMap_cons,List.length_append,List.length_cons]
      have hone : 1 ≤ a.serialize.length:=by simp [QuotedAttr.serialize]
      omega
  have hattrs:=hlong attrs
  obtain ⟨fuel,hfuel⟩ : ∃ fuel, buf.length=fuel+(if slash then 1 else 0)+attrs.length:=by
    refine ⟨(attrs.flatMap QuotedAttr.serialize).length-attrs.length,?_⟩
    rw [hbuf,List.length_append]
    cases slash <;> simp only [if_true,if_false,Bool.false_eq_true,List.length_nil,List.length_singleton] <;> omega
  rw [hfuel,hbuf,scanAttrs_serialize h _ _ _ _ (by simpa using hfew),List.nil_append]
  cases slash with
  | false=>exact scanAttrs_nil _ _ _
  | true=>exact scanAttrs_nil fuel _ _

theorem emitBufferedTag_start {s : State} {name : Bytes} {attrs : List QuotedAttr} {slash : Bool} (h : TagFits name attrs slash)
    (hbuf : s.tagBuf=startText name attrs slash) :
    s.emitBufferedTag=s.emitStartTag (name.map lc) (attrs.map QuotedAttr.attr) slash:=by
  obtain ⟨⟨hnonempty,hchars⟩,-,hfits,hfew,-⟩:=h
  obtain ⟨c,rest,hname⟩:=List.exists_cons_of_ne_nil hnonempty
  have hc:=hchars c (by rw [hname]; exact List.mem_cons_self)
  obtain ⟨-,-,-,-,hbang,hquestion,hslash,-,hws⟩:=isNameChar_plain c hc
  obtain ⟨after,hafter⟩ : ∃ after, after=attrs.flatMap QuotedAttr.serialize++if slash then [47] else []:=⟨_,rfl⟩
  have hstop : ∀ x, after.head? = some x→isNameChar x=false:=by
    intro x hx
    rw [hafter] at hx
    cases attrs with
    | nil=>
      cases slash with
      | false=>cases hx
      | true=>
        obtain rfl:=Option.some.inj hx
        decide
    | cons a attrs=>
      obtain rfl:=Option.some.inj hx
      decide
  obtain ⟨htake,hdrop⟩:=takeWhile_name hchars hstop
  have hshape : s.tagBuf=c::(rest++after):=by
    rw [hbuf,hafter]
    unfold startText
    rw [hname,List.append_assoc]
    rfl
  unfold State.emitBufferedTag
  rw [hname,List.cons_append] at htake hdrop
  rw [hshape,dropWhile_head hws]
  have hnot : (c == 47)=false:=by simpa using hslash
  simp only [hnot,Bool.false_eq_true,if_false,List.head?_cons,Option.some.injEq,hbang,hquestion,or_self,htake,hdrop]
  rw [if_neg (by simp),scanAttrs_start hfits hfew slash after hafter,← hname]

theorem emitBufferedTag_end {s : State} {name : Bytes} (h : IsName name) (hbuf : s.tagBuf=47::name) :
    s.emitBufferedTag=s.emitEndTag (name.map lc):=by
  obtain ⟨c,rest,hname⟩:=List.exists_cons_of_ne_nil h.nonempty
  obtain ⟨-,-,-,-,hbang,hquestion,-⟩:=isNameChar_plain c (h.chars c (by rw [hname]; exact List.mem_cons_self))
  obtain ⟨htake,-⟩:=takeWhile_whole h.chars
  unfold State.emitBufferedTag
  rw [hbuf,dropWhile_head (by decide)]
  have hyes : ((47 : UInt8) == 47)=true:=rfl
  simp only [hyes,if_true,htake]
  rw [if_neg (by simp [hname,hbang,hquestion]),if_neg (by simp [hname])]

end Scanning

section Tags

variable {s t : State} {name : Bytes} {attrs : List QuotedAttr} {slash : Bool} {stack : List Bytes}

theorem emit_seen (e : Event) (hflushed : t.textBuf=[]) : (t.emit e).seen=t.seen++expand (e,t.stack):=by
  unfold State.seen State.emit
  simp [hflushed]

/-- A tag that is whole in the buffer, with all text before it received. -/
structure Collected (s : State) (body : Bytes) (t : State) : Prop where
  state : t.state=.inTag
  tagBuf : t.tagBuf=body
  stack : t.stack=s.stack
  flushed : t.textBuf=[]
  seen : t.seen=s.seen

theorem feed_tag {body : Bytes} (hbody : TagText body) (hhead : body.head? ≠ some 33) (hroom : body.length ≤ kTagCap)
    (hstate : s.state=.text) : ∃ t, Collected s body t ∧ s.feed (60::body++[62]) =
      { t.emitBufferedTag with
        state:=if t.emitBufferedTag.state=.inTag then .text else t.emitBufferedTag.state
        tagBuf:=[] }:=by
  refine ⟨{s.flushText with state:=.inTag,tagBuf:=body,tagQuote:=0},?_,?_⟩
  · constructor
    · rfl
    · rfl
    · exact flushText_stack s
    · exact flushText_textBuf s
    · exact flushText_seen s
  · have hcollect:=feed_tagText hbody {s.flushText with state:=.inTag,tagBuf:=[],tagQuote:=0} rfl rfl hhead hroom
    rw [List.cons_append,feed_cons,byte_bracket hstate,feed_append,hcollect,feed_cons,feed_nil]
    rw [byte_tag rfl hhead]
    rfl

theorem head_name (h : IsName name) (rest : Bytes) : (name++rest).head? ≠ some 33:=by
  obtain ⟨c,tail,hname⟩:=List.exists_cons_of_ne_nil h.nonempty
  obtain ⟨-,-,-,-,hbang,-⟩:=isNameChar_plain c (h.chars c (by rw [hname]; exact List.mem_cons_self))
  rw [hname]
  simpa using hbang

theorem head_start (h : IsName name) : (startText name attrs slash).head? ≠ some 33:=by
  unfold startText
  rw [List.append_assoc]
  exact head_name h _

theorem popTag_top (hstack : t.stack=name.map lc::stack) : t.popTag (name.map lc)={t with stack:=stack}:=by
  unfold State.popTag
  rw [hstack,List.dropWhile_cons_of_neg (by simp [ieq_self])]

theorem reads_endTag (h : IsName name) (hshort : name.length < kRawNameMax) (stack : List Bytes) :
    Reads (endTag name) (name.map lc::stack) stack [(.finish (name.map lc),stack)]:=by
  intro s hstate hstack
  have hshort' : name.length < 16:=hshort
  obtain ⟨t,ht,hfeed⟩:=feed_tag (TagText.plain (c:=47) (by decide) (tagText_name h.chars)) (by simp)
    (by rw [List.length_cons]; unfold kTagCap; omega) hstate
  have hemit : t.emitBufferedTag=({t with stack:=stack} : State).emit (.endTag (name.map lc)):=by
    rw [emitBufferedTag_end h ht.tagBuf]
    unfold State.emitEndTag
    rw [popTag_top (ht.stack.trans hstack)]
  have hshape : endTag name=60::(47::name)++[62]:=rfl
  rw [hshape,hfeed,hemit]
  refine ⟨if_pos ht.state,rfl,?_⟩
  have hseen : ({t with stack:=stack} : State).seen=t.seen:=by
    unfold State.seen
    rw [ht.flushed]
    rfl
  rw [← ht.seen,← hseen]
  exact emit_seen (t:={t with stack:=stack}) _ ht.flushed

theorem isVoid_not_raw (h : isVoid name=true) : isRaw name=false:=by
  cases hraw : isRaw name with
  | false=>rfl
  | true=>
    unfold isRaw at hraw
    rw [Bool.or_eq_true] at hraw
    unfold isVoid at h
    rcases hraw with hraw | hraw
    · unfold ieq at hraw h
      rw [beq_iff_eq] at hraw
      rw [hraw] at h
      revert h
      decide +kernel
    · unfold ieq at hraw h
      rw [beq_iff_eq] at hraw
      rw [hraw] at h
      revert h
      decide +kernel

theorem isRaw_not_void (h : isRaw name=true) : isVoid name=false:=by
  cases hvoid : isVoid name with
  | false=>rfl
  | true=>
    rw [isVoid_not_raw hvoid] at h
    cases h

theorem pushTag_room (hroom : t.stack.length < kStackMax) (hshort : name.length < kRawNameMax) :
    t.pushTag (name.map lc)={t with stack:=name.map lc::t.stack}:=by
  unfold State.pushTag
  have htake : (name.map lc).take (kRawNameMax-1)=name.map lc:=by
    apply List.take_of_length_le
    rw [List.length_map]
    exact Nat.le_sub_one_of_lt hshort
  rw [if_neg (by omega),htake]

theorem reads_void (h : TagFits name attrs slash) (hvoid : isVoid name=true) (stack : List Bytes) :
    Reads (startTag name attrs slash) stack stack [(.start (name.map lc) (attrs.map QuotedAttr.attr) slash,stack)]:=by
  intro s hstate hstack
  obtain ⟨t,ht,hfeed⟩:=feed_tag (tagText_start h) (head_start h.isName) h.room hstate
  have hemit : t.emitBufferedTag=t.emit (.startTag (name.map lc) (attrs.map QuotedAttr.attr) slash):=by
    rw [emitBufferedTag_start h ht.tagBuf]
    unfold State.emitStartTag
    simp [isVoid_lower,isRaw_lower,hvoid,isVoid_not_raw hvoid]
  have hshape : startTag name attrs slash=60::startText name attrs slash++[62]:=rfl
  rw [hshape,hfeed,hemit]
  refine ⟨if_pos ht.state,ht.stack.trans hstack,?_⟩
  rw [← ht.seen,← hstack,← ht.stack]
  exact emit_seen _ ht.flushed

theorem reads_start (h : TagFits name attrs false) (hvoid : isVoid name=false) (hraw : isRaw name=false)
    (hroom : stack.length < kStackMax) : Reads (startTag name attrs false) stack (name.map lc::stack)
      [(.start (name.map lc) (attrs.map QuotedAttr.attr) false,name.map lc::stack)]:=by
  intro s hstate hstack
  obtain ⟨t,ht,hfeed⟩:=feed_tag (tagText_start h) (head_start h.isName) h.room hstate
  have hts : t.stack=stack:=ht.stack.trans hstack
  have hemit : t.emitBufferedTag=({t with stack:=name.map lc::stack} : State).emit
      (.startTag (name.map lc) (attrs.map QuotedAttr.attr) false):=by
    rw [emitBufferedTag_start h ht.tagBuf]
    unfold State.emitStartTag
    rw [pushTag_room (by rw [hts]; exact hroom) h.short,hts]
    simp [isVoid_lower,isRaw_lower,hvoid,hraw]
  have hshape : startTag name attrs false=60::startText name attrs false++[62]:=rfl
  rw [hshape,hfeed,hemit]
  refine ⟨if_pos ht.state,rfl,?_⟩
  have hseen : ({t with stack:=name.map lc::stack} : State).seen=t.seen:=by
    unfold State.seen
    rw [ht.flushed]
    rfl
  rw [← ht.seen,← hseen]
  exact emit_seen (t:={t with stack:=name.map lc::stack}) _ ht.flushed

end Tags

section Raw

/-- What the content has so far of an end tag: so many bytes of `</name`, then blanks. -/
structure Held (lower done : Bytes) (pos : ℕ) : Prop where
  le : pos ≤ 2+lower.length
  ends : ∃ before tag gap, done=before++tag++gap ∧ tag.map lc=(60::47::lower).take pos ∧
    (∀ c∈gap, isWs c=true ∨ c=47) ∧ (gap≠[]→pos=2+lower.length)

theorem Held.restart (lower done : Bytes) (c : UInt8) : Held lower (done++[c]) (if c=60 then 1 else 0):=by
  by_cases hc : c=60
  · rw [if_pos hc]
    refine ⟨by omega,done,[c],[],by simp,?_,by simp,by simp⟩
    rw [hc]
    rfl
  · rw [if_neg hc]
    exact ⟨by omega,done++[c],[],[],by simp,rfl,by simp,by simp⟩

theorem Held.next {lower done : Bytes} {pos : ℕ} (h : Held lower done pos) {c : UInt8}
    (hc : (60::47::lower)[pos]? = some (lc c)) : Held lower (done++[c]) (pos+1):=by
  obtain ⟨-,before,tag,gap,hdone,htag,-,hgap⟩:=h
  have hlt : pos < 2+lower.length:=by
    have hlt:=(List.getElem?_eq_some_iff.mp hc).1
    simp only [List.length_cons] at hlt
    omega
  have hnone : gap=[]:=by
    by_contra hne
    have heq:=hgap hne
    omega
  refine ⟨by omega,before,tag++[c],[],?_,?_,by simp,by simp⟩
  · rw [hdone,hnone]
    simp
  · rw [List.map_append,htag,List.take_add_one,hc]
    rfl

theorem Held.blank {lower done : Bytes} (h : Held lower done (2+lower.length)) {c : UInt8} (hc : isWs c=true ∨ c=47) :
    Held lower (done++[c]) (2+lower.length):=by
  obtain ⟨hle,before,tag,gap,hdone,htag,hgap,-⟩:=h
  refine ⟨hle,before,tag,gap++[c],by rw [hdone,List.append_assoc],htag,?_,fun _=>rfl⟩
  intro x hx
  rcases List.mem_append.mp hx with hx | hx
  · exact hgap x hx
  · rw [List.mem_singleton.mp hx]
    exact hc

theorem want_eq (s : State) : s.want=(60::47::s.rawName).getD s.rawClosePos 0:=by
  unfold State.want
  split <;> rename_i heq <;> rw [heq] <;> rfl

variable {s : State} {name : Bytes}

theorem want_lower (hraw : s.rawName=name.map lc) (hpos : s.rawClosePos < 2+name.length) :
    (60::47::name.map lc)[s.rawClosePos]? = some s.want ∧ lc s.want=s.want:=by
  have hget : (60::47::name.map lc)[s.rawClosePos]? = some s.want:=by
    rw [want_eq,hraw,List.getD_eq_getElem?_getD]
    have hlt : s.rawClosePos < (60::47::name.map lc).length:=by
      simp only [List.length_cons,List.length_map]
      omega
    rw [List.getElem?_eq_getElem hlt]
    rfl
  refine ⟨hget,?_⟩
  have hmem:=List.mem_of_getElem? hget
  rcases List.mem_cons.mp hmem with heq | hmem
  · rw [heq]
    rfl
  · rcases List.mem_cons.mp hmem with heq | hmem
    · rw [heq]
      rfl
    · obtain ⟨c,-,hc⟩:=List.mem_map.mp hmem
      rw [← hc]
      exact lc_lc c

theorem rawByte_held (hraw : s.rawName=name.map lc) {done : Bytes} (hheld : Held (name.map lc) done s.rawClosePos) (c : UInt8)
    (hopen : ¬(c=62 ∧ s.rawClosePos=2+name.length)) :
    ∃ pos, s.rawByte c={s with rawClosePos:=pos} ∧ Held (name.map lc) (done++[c]) pos:=by
  have hlength : s.rawName.length=name.length:=by rw [hraw,List.length_map]
  have hle:=hheld.le
  rw [List.length_map] at hle
  unfold State.rawByte
  dsimp only
  rw [hlength]
  by_cases hpos : s.rawClosePos < 2+name.length
  · rw [if_pos hpos]
    obtain ⟨hget,hlower⟩:=want_lower hraw hpos
    by_cases hmatch : lc c=lc s.want
    · rw [if_pos hmatch]
      exact ⟨_,rfl,hheld.next (by rw [hget,hmatch,hlower])⟩
    · rw [if_neg hmatch]
      exact ⟨_,rfl,Held.restart _ done c⟩
  · have heq : s.rawClosePos=2+name.length:=by omega
    have hc : c≠62:=fun hc=>hopen ⟨hc,heq⟩
    rw [if_neg hpos,if_neg hc]
    have hfull : Held (name.map lc) done (2+(name.map lc).length):=by
      rw [List.length_map,← heq]
      exact hheld
    by_cases hblank : (isWs c || c == 47)=true
    · rw [if_pos hblank]
      have hblank' : isWs c=true ∨ c=47:=by simpa using hblank
      refine ⟨s.rawClosePos,rfl,?_⟩
      have hnext:=hfull.blank hblank'
      rw [List.length_map,← heq] at hnext
      exact hnext
    · rw [if_neg hblank]
      exact ⟨_,rfl,Held.restart _ done c⟩

theorem feed_content {content : Bytes} (hopen : ¬Closes name content) (done rest : Bytes) (hsplit : content=done++rest)
    (s : State) (hstate : s.state=.rawText) (hraw : s.rawName=name.map lc) (hheld : Held (name.map lc) done s.rawClosePos) :
    ∃ pos, s.feed rest={s with rawClosePos:=pos} ∧ Held (name.map lc) content pos:=by
  induction rest generalizing done s with
  | nil=>
    rw [List.append_nil] at hsplit
    refine ⟨s.rawClosePos,rfl,?_⟩
    rw [hsplit]
    exact hheld
  | cons c rest ih=>
    have hgoes : ¬(c=62 ∧ s.rawClosePos=2+name.length):=by
      rintro ⟨rfl,hpos⟩
      obtain ⟨before,tag,gap,hdone,htag,hgap,-⟩:=hheld.ends
      refine hopen ⟨before,tag,gap,rest,by rw [hsplit,hdone],?_,hgap⟩
      rw [htag,hpos]
      apply List.take_of_length_le
      simp only [List.length_cons,List.length_map]
      omega
    obtain ⟨pos,hbyte,hnext⟩:=rawByte_held hraw hheld c hgoes
    have hfirst : s.byte c={s with rawClosePos:=pos}:=by
      rw [← hbyte]
      unfold State.byte
      rw [hstate]
    rw [feed_cons,hfirst]
    exact ih (done++[c]) (by rw [hsplit,List.append_assoc,List.singleton_append]) {s with rawClosePos:=pos} hstate hraw hnext

theorem rawByte_bracket (hname : IsName name) (hraw : s.rawName=name.map lc) :
    s.rawByte 60={s with rawClosePos:=1}:=by
  have hlength : s.rawName.length=name.length:=by rw [hraw,List.length_map]
  unfold State.rawByte
  dsimp only
  rw [hlength]
  by_cases hpos : s.rawClosePos < 2+name.length
  · rw [if_pos hpos]
    obtain ⟨hget,hlower⟩:=want_lower hraw hpos
    by_cases hmatch : lc 60=lc s.want
    · rw [if_pos hmatch]
      have hzero : s.rawClosePos=0:=by
        rw [hlower] at hmatch
        rw [← hmatch] at hget
        match hp : s.rawClosePos with
        | 0=>rfl
        | 1=>
          rw [hp] at hget
          simp [lc] at hget
        | n+2=>
          rw [hp] at hget
          obtain ⟨x,hx,hxlc⟩:=List.mem_map.mp (List.mem_of_getElem? (l:=name.map lc) (i:=n) hget)
          obtain ⟨hne,-⟩:=isNameChar_plain (lc x) (by rw [isNameChar_lc]; exact hname.chars x hx)
          exact absurd hxlc hne
      rw [hzero]
    · rw [if_neg hmatch]
      rfl
  · rw [if_neg hpos,if_neg (by decide),if_neg (by decide)]
    rfl

theorem feed_closingName (pre rest : Bytes) (hsplit : name=pre++rest) (s : State) (hstate : s.state=.rawText)
    (hraw : s.rawName=name.map lc) (hpos : s.rawClosePos=2+pre.length) :
    s.feed rest={s with rawClosePos:=2+name.length}:=by
  induction rest generalizing pre s with
  | nil=>
    rw [List.append_nil] at hsplit
    rw [feed_nil,hsplit,← hpos]
  | cons c rest ih=>
    have hlt : s.rawClosePos < 2+name.length:=by
      rw [hpos,hsplit,List.length_append,List.length_cons]
      omega
    have hwant : s.want=lc c:=by
      obtain ⟨hget,-⟩:=want_lower hraw hlt
      rw [hpos,Nat.add_comm 2] at hget
      simp only [List.getElem?_cons_succ,hsplit,List.map_append,List.map_cons] at hget
      rw [List.getElem?_append_right (by rw [List.length_map]),List.length_map,Nat.sub_self] at hget
      exact (Option.some.inj hget).symm
    have hbyte : s.byte c={s with rawClosePos:=s.rawClosePos+1}:=by
      have hmode : s.byte c=s.rawByte c:=by
        unfold State.byte
        rw [hstate]
      rw [hmode]
      unfold State.rawByte
      rw [if_pos (by rw [hraw,List.length_map]; exact hlt),if_pos (by rw [hwant,lc_lc])]
    rw [feed_cons,hbyte]
    rw [ih (pre++[c]) (by rw [hsplit,List.append_assoc,List.singleton_append]) {s with rawClosePos:=s.rawClosePos+1}
      hstate hraw (by simp only [List.length_append,List.length_singleton]; omega)]

theorem feed_closing (hname : IsName name) (hstate : s.state=.rawText) (hraw : s.rawName=name.map lc) :
    s.feed (endTag name)
      = { ({s with rawClosePos:=2+name.length} : State).emitEndTag (name.map lc) with
          state:=.text,tagBuf:=[],rawClosePos:=0 }:=by
  have hmode : ∀ (t : State) (c : UInt8), t.state=.rawText→t.byte c=t.rawByte c:=by
    intro t c ht
    unfold State.byte
    rw [ht]
  have hlength : s.rawName.length=name.length:=by rw [hraw,List.length_map]
  have hslash : ({s with rawClosePos:=1} : State).rawByte 47={s with rawClosePos:=2}:=by
    unfold State.rawByte
    rw [if_pos (by show 1 < 2+_; omega)]
    rfl
  have hend : ({s with rawClosePos:=2+name.length} : State).rawByte 62
      = { ({s with rawClosePos:=2+name.length} : State).emitEndTag (name.map lc) with
          state:=.text,tagBuf:=[],rawClosePos:=0 }:=by
    unfold State.rawByte
    rw [if_neg (by show ¬2+_ < 2+_; rw [hlength]; omega),if_pos rfl]
    dsimp only
    rw [hraw]
  have hshape : endTag name=60::47::(name++[62]):=rfl
  rw [hshape,feed_cons,hmode s _ hstate,rawByte_bracket hname hraw]
  rw [feed_cons,hmode {s with rawClosePos:=1} _ hstate,hslash]
  have hmatched : ({s with rawClosePos:=2} : State).feed name={s with rawClosePos:=2+name.length}:=
    feed_closingName [] name rfl {s with rawClosePos:=2} hstate hraw rfl
  rw [feed_append,hmatched]
  rw [feed_cons,feed_nil,hmode {s with rawClosePos:=2+name.length} _ hstate,hend]

end Raw

section Documents

variable {name : Bytes} {attrs : List QuotedAttr} {stack : List Bytes}

theorem feed_rawStart (h : TagFits name attrs false) (hraw : isRaw name=true) (hroom : stack.length < kStackMax) (s : State)
    (hstate : s.state=.text) (hstack : s.stack=stack) :
    ∃ t, s.feed (startTag name attrs false)=t ∧ t.state=.rawText ∧ t.rawName=name.map lc ∧ t.rawClosePos=0 ∧
      t.stack=name.map lc::stack ∧ t.textBuf=[] ∧
      t.seen=s.seen++[(.start (name.map lc) (attrs.map QuotedAttr.attr) false,name.map lc::stack)]:=by
  obtain ⟨t,ht,hfeed⟩:=feed_tag (tagText_start h) (head_start h.isName) h.room hstate
  have hts : t.stack=stack:=ht.stack.trans hstack
  have htake : (name.map lc).take (kRawNameMax-1)=name.map lc:=by
    apply List.take_of_length_le
    rw [List.length_map]
    exact Nat.le_sub_one_of_lt h.short
  have hemit : t.emitBufferedTag={ ({t with stack:=name.map lc::stack} : State).emit
      (.startTag (name.map lc) (attrs.map QuotedAttr.attr) false) with
        state:=.rawText,rawClosePos:=0,rawName:=name.map lc }:=by
    rw [emitBufferedTag_start h ht.tagBuf]
    unfold State.emitStartTag
    rw [pushTag_room (by rw [hts]; exact hroom) h.short,hts,htake]
    simp [isVoid_lower,isRaw_lower,isRaw_not_void hraw,hraw]
  have hshape : startTag name attrs false=60::startText name attrs false++[62]:=rfl
  rw [hshape,hfeed,hemit]
  refine ⟨_,rfl,rfl,rfl,rfl,rfl,ht.flushed,?_⟩
  have hseen : ({t with stack:=name.map lc::stack} : State).seen=t.seen:=by
    unfold State.seen
    rw [ht.flushed]
    rfl
  rw [← ht.seen,← hseen]
  exact emit_seen (t:={t with stack:=name.map lc::stack}) _ ht.flushed

theorem reads_raw (h : TagFits name attrs false) (hraw : isRaw name=true) {content : Bytes} (hcontent : ¬Closes name content)
    (hroom : stack.length < kStackMax) : Reads (startTag name attrs false++content++endTag name) stack stack
      [(.start (name.map lc) (attrs.map QuotedAttr.attr) false,name.map lc::stack),(.finish (name.map lc),stack)]:=by
  intro s hstate hstack
  obtain ⟨t,hfeed,htstate,htraw,htpos,htstack,htflushed,htseen⟩:=feed_rawStart h hraw hroom s hstate hstack
  have hnone : Held (name.map lc) [] t.rawClosePos:=by
    rw [htpos]
    exact ⟨by omega,[],[],[],rfl,rfl,by simp,by simp⟩
  obtain ⟨pos,hbody,-⟩:=feed_content hcontent [] content rfl t htstate htraw hnone
  have hend:=feed_closing (s:={t with rawClosePos:=pos}) h.isName htstate htraw
  have hpop : ({t with rawClosePos:=2+name.length} : State).emitEndTag (name.map lc)
      = ({t with rawClosePos:=2+name.length,stack:=stack} : State).emit (.endTag (name.map lc)):=by
    unfold State.emitEndTag
    rw [popTag_top (t:={t with rawClosePos:=2+name.length}) htstack]
  rw [feed_append,feed_append,hfeed,hbody,hend,hpop]
  refine ⟨rfl,rfl,?_⟩
  have hseen : ({t with rawClosePos:=2+name.length,stack:=stack} : State).seen=t.seen:=by
    unfold State.seen
    rw [htflushed]
    rfl
  have hall:=emit_seen (t:={t with rawClosePos:=2+name.length,stack:=stack}) (.endTag (name.map lc)) htflushed
  rw [hseen,htseen,List.append_assoc] at hall
  exact hall

/-- What the tokenizer has received: every piece with the elements that are open at it. -/
def withOpened (ps : List (Piece × List Bytes)) : List (Piece × List Bytes):=ps.map fun p=>(p.1,opened p)

mutual

theorem reads_node {d : ℕ} : ∀ {n : Node} {stack : List Bytes}, n.Fits d → stack.length+d ≤ kStackMax →
    Reads n.serialize stack stack (withOpened (n.pieces stack))
  | .text bytes, stack, hfits, hroom=>by
    cases hfits with
    | text htext=>
      have hpieces : withOpened ((Node.text bytes).pieces stack)=bytes.map fun c=>(.char c,stack):=by
        simp [withOpened,Node.pieces,opened,Function.comp_def]
      rw [hpieces]
      exact reads_text bytes htext stack
  | .comment bytes, stack, hfits, hroom=>by
    cases hfits with
    | comment hdashes=>exact reads_comment bytes hdashes stack
  | .void name attrs slash, stack, hfits, hroom=>by
    cases hfits with
    | void htag hname=>
      have hpieces : withOpened ((Node.void name attrs slash).pieces stack)
          = [(.start (name.map lc) (attrs.map QuotedAttr.attr) slash,stack)]:=by
        simp [withOpened,Node.pieces,opened,isVoid_lower,hname]
      rw [hpieces]
      exact reads_void htag hname stack
  | .raw name attrs content, stack, hfits, hroom=>by
    cases hfits with
    | raw htag hname hcontent=>
      have hpieces : withOpened ((Node.raw name attrs content).pieces stack)
          = [(.start (name.map lc) (attrs.map QuotedAttr.attr) false,name.map lc::stack),(.finish (name.map lc),stack)]:=by
        simp [withOpened,Node.pieces,opened,isVoid_lower,isRaw_not_void hname]
      rw [hpieces]
      exact reads_raw htag hname hcontent (by omega)
  | .element name attrs children, stack, hfits, hroom=>by
    cases hfits with
    | element htag hvoid hraw hchildren=>
      have hpieces : withOpened ((Node.element name attrs children).pieces stack)
          = [(.start (name.map lc) (attrs.map QuotedAttr.attr) false,name.map lc::stack)] ++
            withOpened (Node.piecesAll (name.map lc::stack) children)++[(.finish (name.map lc),stack)]:=by
        simp [withOpened,Node.pieces,opened,isVoid_lower,hvoid]
      rw [hpieces]
      have hinner:=reads_nodes hchildren (show (name.map lc::stack).length+_ ≤ kStackMax by
        rw [List.length_cons]
        omega)
      exact ((reads_start htag hvoid hraw (by omega)).append hinner).append (reads_endTag htag.isName htag.short stack)

theorem reads_nodes {d : ℕ} : ∀ {ns : List Node} {stack : List Bytes}, (∀ n∈ns, n.Fits d) → stack.length+d ≤ kStackMax →
    Reads (Node.serializeAll ns) stack stack (withOpened (Node.piecesAll stack ns))
  | [], stack, _, _=>Reads.nil stack
  | n::ns, stack, hfits, hroom=>by
    have hpieces : withOpened (Node.piecesAll stack (n::ns))
        = withOpened (n.pieces stack)++withOpened (Node.piecesAll stack ns):=by
      simp [withOpened,Node.piecesAll]
    rw [hpieces]
    exact (reads_node (hfits n List.mem_cons_self) hroom).append
      (reads_nodes (fun m hm=>hfits m (List.mem_cons_of_mem n hm)) hroom)

end

end Documents

/-- However the document is cut, the sink receives its tags and its text, each with the elements that are open at it. -/
theorem delivers (doc : List Node) (chunks : List Bytes) (hdoc : ∀ n∈doc, n.Fits kStackMax)
    (hchunks : chunks.flatten=Node.serializeAll doc) : Delivers opened doc chunks:=by
  intro name
  have hseen : (tokenize chunks).log.flatMap expand=withOpened (Node.piecesAll [] doc):=by
    have hroom : ([] : List Bytes).length+kStackMax ≤ kStackMax:=by simp
    obtain ⟨-,-,hall⟩:=reads_nodes hdoc hroom {} rfl rfl
    have hflushed : (tokenize chunks).seen=withOpened (Node.piecesAll [] doc):=by
      unfold tokenize State.finish
      rw [flushText_seen,feed_chunks,hchunks,hall]
      rfl
    have hempty : (tokenize chunks).textBuf=[]:=flushText_textBuf _
    unfold State.seen at hflushed
    rw [hempty,List.map_nil,List.append_nil] at hflushed
    exact hflushed
  rw [hseen]
  unfold withOpened
  rw [List.map_map]
  rfl

/-- `<p id=">'">a<br/><!-- b --></p>` -/
def paragraph : List Node:=
  [.element [112] [⟨[105,100],34,[62,39]⟩] [.text [97],.void [98,114] [] true,.comment [32,98,32]]]

theorem paragraph_fits : ∀ n∈paragraph, n.Fits kStackMax:=by
  intro n hn
  obtain rfl:=List.mem_singleton.mp hn
  apply Node.Fits.element
  · constructor
    · exact ⟨by decide,by decide +kernel⟩
    · decide
    · intro a ha
      obtain rfl:=List.mem_singleton.mp ha
      exact ⟨⟨by decide,by decide +kernel⟩,Or.inl rfl,by decide⟩
    · decide
    · decide
  · decide +kernel
  · decide +kernel
  · intro n hn
    rcases List.mem_cons.mp hn with rfl | hn
    · exact Node.Fits.text (by decide)
    · rcases List.mem_cons.mp hn with rfl | hn
      · refine Node.Fits.void ⟨⟨by decide,by decide +kernel⟩,by decide,by simp,by decide,by decide⟩ ?_
        decide +kernel
      · obtain rfl:=List.mem_singleton.mp hn
        exact Node.Fits.comment (by decide)

theorem delivers_paragraph : Delivers opened paragraph [(Node.serializeAll paragraph).take 9,(Node.serializeAll paragraph).drop 9]:=
  delivers paragraph _ paragraph_fits (by decide +kernel)

/-- At its own start tag an element is not its ancestor, but `inside` is true of it. -/
theorem not_delivers_ancestors : ¬∀ doc chunks, (∀ n∈doc, n.Fits kStackMax) → chunks.flatten=Node.serializeAll doc →
    Delivers Prod.snd doc chunks:=by
  intro h
  have hinside:=congrArg (List.map Prod.snd) (h paragraph [Node.serializeAll paragraph] paragraph_fits (by decide +kernel) [112])
  revert hinside
  decide +kernel

end CdcBadge.Html
