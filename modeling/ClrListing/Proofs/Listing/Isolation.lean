/-
What is wrong with one method's code stays with that method.

The listing of a method comes from three look-ups in the runtime: the
method at its start, the code of that method, and the names of the methods
that its code refers to. In a snapshot whose methods lie apart none of
them reads the code of a method that starts elsewhere (`code_recode`). So
other bytes in the place of one method's code, whatever the decoder makes
of them, leave all pieces of a listing as they are but those of the method
itself (`listing_of_recoded`).
-/
import ClrListing.Proofs.Listing.Ending
import ClrListing.Proofs.Listing.Pieces
import ClrListing.Proofs.Native.Recoded

namespace ClrListing.Listing

open Metadata Native

variable {σ : Type}

namespace Source

/-- Where listings are taken from if a snapshot stands in for the process
and the runtime. -/
def ofSnapshot (s : Snapshot) (prepared : Prepared) (a : Assembly) (decoder : Decoder) : Source :=
  .ofHost s.host prepared a s.runtime decoder

section Recoded

variable {s : Snapshot} {i : Nat} {m : RecordedMethod} {code : List UInt8} (prepared : Prepared)
  (a : Assembly) (decoder : Decoder)

/-- Names of methods are found without regard to code. -/
theorem signatureAt?_recode (i : Nat) (code : List UInt8) :
    (ofSnapshot (s.recode i code) prepared a decoder).signatureAt?
      = (ofSnapshot s prepared a decoder).signatureAt? := by
  funext address
  exact congrArg (Option.map NativeMethod.signature) (s.methodAt?_recode i code address)

/-- The code of a method that starts elsewhere is read and decoded as
before. -/
theorem code_recode (hs : s.LieApart) (hm : s.methods[i]? = some m)
    (hcode : code.length = m.code.length) {token : Token}
    (hentry : s.entryOf? a token ≠ some m.entry) :
    (ofSnapshot (s.recode i code) prepared a decoder).code token
      = (ofSnapshot s prepared a decoder).code token := by
  have hsymbols := signatureAt?_recode (s := s) prepared a decoder i code
  have hfound : ((s.recode i code).entryOf? a token).bind (s.recode i code).methodAt?
      = (s.entryOf? a token).bind s.methodAt? := by
    rw [s.entryOf?_recode]
    congr 1
    funext address
    exact s.methodAt?_recode i code address
  unfold Source.code
  rw [hsymbols]
  dsimp only [ofSnapshot, ofHost, Snapshot.host, Snapshot.runtime]
  rw [hfound]
  cases hnative : (s.entryOf? a token).bind s.methodAt? with
  | none => rfl
  | some native =>
    dsimp only
    by_cases hcompiled : native.isCompiled = true
    · -- the method that is found is another than the recoded one
      obtain ⟨entry, hstart, hat⟩ := Option.bind_eq_some_iff.mp hnative
      obtain ⟨m', hmem', rfl⟩ := Snapshot.entry_of_entryOf? hstart
      have hne : m.entry ≠ m'.entry := by
        intro hsame
        rw [hsame] at hentry
        exact hentry hstart
      obtain ⟨j, found, hji, hfound', rfl⟩ := Snapshot.native_of_methodAt? hs hmem' hat hm hne
      have hread := Snapshot.read_recode hs hji.symm hm hfound' hcompiled hcode
      change (s.recode i code).read found.native.hotStart found.native.hotSize.toNat = _ at hread
      rw [hread]
      rfl
    · simp only [hcompiled]
      rfl

/-- What a piece says stays as it is, unless it is the code of a method
that starts where the recoded method does. -/
theorem pieceBlock_recode (hs : s.LieApart) (hm : s.methods[i]? = some m)
    (hcode : code.length = m.code.length) {piece : Piece}
    (hpiece : ∀ token, piece = .code token → s.entryOf? a token ≠ some m.entry) :
    (ofSnapshot (s.recode i code) prepared a decoder).pieceBlock piece
      = (ofSnapshot s prepared a decoder).pieceBlock piece := by
  cases piece with
  | code token =>
    have hsame := code_recode prepared a decoder hs hm hcode (hpiece token rfl)
    dsimp only [pieceBlock, methodBlock]
    rw [hsame]
    rfl
  | openType _ => rfl
  | openMethod _ => rfl
  | gap => rfl

end Recoded

end Source

-- ============================================================ listings

/-- Other code of the same length in the place of one method's, in a
snapshot whose methods lie apart. Every node is listed by the same pieces
in the same order as before; all of them say what they said, but the code
of methods that start where that method does; and all nodes are listed,
one block for each. -/
theorem listing_of_recoded (s : Snapshot) (hs : s.LieApart) {i : Nat} {m : RecordedMethod}
    (hm : s.methods[i]? = some m) {code : List UInt8} (hcode : code.length = m.code.length)
    (prepared : Prepared) (a : Assembly) (decoder : Decoder) (nodes : List Node) :
    let before := Source.ofSnapshot s prepared a decoder
    let after := Source.ofSnapshot (s.recode i code) prepared a decoder
    (∀ token, s.entryOf? a token ≠ some m.entry →
        after.block (.method token) = before.block (.method token))
      ∧ (∀ token children,
          after.block (.openType token children) = before.block (.openType token children))
      ∧ (∀ token, after.block (.openMethod token) = before.block (.openMethod token))
      ∧ (∀ node : Node, before.block node = Block.join (node.pieces.map before.pieceBlock)
          ∧ after.block node = Block.join (node.pieces.map after.pieceBlock))
      ∧ (∀ piece, (∀ token, piece = .code token → s.entryOf? a token ≠ some m.entry) →
          after.pieceBlock piece = before.pieceBlock piece)
      ∧ ∀ p : Progress (Session σ), Run.upshot p (nodes.forM (writeBlock after))
          = (.ok (), ⟨⟨p.state.report ++ nodes.map fun node => .block (after.block node).lines,
              p.state.host⟩, p.log ++ nodes.flatMap fun node => (after.block node).log⟩) := by
  intro before after
  have hpieces : ∀ piece, (∀ token, piece = .code token → s.entryOf? a token ≠ some m.entry) →
      after.pieceBlock piece = before.pieceBlock piece :=
    fun piece hpiece => Source.pieceBlock_recode prepared a decoder hs hm hcode hpiece
  refine ⟨?_, ?_, ?_, ?_, hpieces, ?_⟩
  · intro token hentry
    apply hpieces (.code token)
    rintro _ ⟨⟩
    exact hentry
  · intro token _
    exact hpieces (.openType token) nofun
  · intro token
    exact hpieces (.openMethod token) nofun
  · intro node
    exact ⟨block_eq before node, block_eq after node⟩
  · intro p
    exact upshot_blocks after nodes p

/-- A method that does nothing but return, recorded at an address. -/
def recordedReturn (token : Token) (entry : UInt64) : RecordedMethod :=
  (RecordedMethod.compiled "System.Void C.M()" entry [0xc3]).withToken "returns" token

/-- Two methods that do nothing but return, one page apart. -/
def twoReturns : Snapshot :=
  ⟨Snapshot.defaultInfo .x64,
    [recordedReturn ⟨0x06000001⟩ 0x1000, recordedReturn ⟨0x06000002⟩ 0x2000]⟩

theorem lieApart_twoReturns : twoReturns.LieApart where
  whole := by decide
  apart := by
    have hcode : ∀ {first second : UInt64}, first.toNat + 1 ≤ second.toNat → ∀ address,
        (recordedReturn ⟨0x06000001⟩ first).native.contains address = true →
        (recordedReturn ⟨0x06000002⟩ second).native.contains address = true → False := by
      intro first second hfirst address hin hin'
      have hbelow := (NativeMethod.contains_iff.mp hin).2.2
      have habove := (NativeMethod.contains_iff.mp hin').2.1
      change address.toNat < first.toNat + 1 at hbelow
      change second.toNat ≤ address.toNat at habove
      omega
    intro i j m m' hij hm hm'
    match i, j with
    | 0, 0 | 1, 1 => exact absurd rfl hij
    | 0, 1 =>
      cases hm
      cases hm'
      exact ⟨fun address h => hcode (by decide) address h.1 h.2, by decide, by decide⟩
    | 1, 0 =>
      cases hm
      cases hm'
      exact ⟨fun address h => hcode (by decide) address h.2 h.1, by decide, by decide⟩
    | 0, _ + 2 | 1, _ + 2 => cases hm'
    | _ + 2, _ => cases hm

/-- The second method is listed as before, though the first no longer is an
instruction. -/
theorem listing_of_recodedReturn :
    let before := Source.ofSnapshot twoReturns [] ⟨"returns", [], []⟩ decode
    let after := Source.ofSnapshot (twoReturns.recode 0 [0x0f]) [] ⟨"returns", [], []⟩ decode
    twoReturns.LieApart ∧ twoReturns.methods[0]? = some (recordedReturn ⟨0x06000001⟩ 0x1000)
      ∧ [(0x0f : UInt8)].length = (recordedReturn ⟨0x06000001⟩ 0x1000).code.length
      ∧ after.block (.method ⟨0x06000002⟩) = before.block (.method ⟨0x06000002⟩) := by
  have hfirst : twoReturns.methods[0]? = some (recordedReturn ⟨0x06000001⟩ 0x1000) := rfl
  have hlength : [(0x0f : UInt8)].length = (recordedReturn ⟨0x06000001⟩ 0x1000).code.length := rfl
  refine ⟨lieApart_twoReturns, hfirst, hlength, ?_⟩
  have hlisting := listing_of_recoded (σ := Unit) twoReturns lieApart_twoReturns hfirst hlength
    [] ⟨"returns", [], []⟩ decode []
  exact hlisting.1 ⟨0x06000002⟩ (by decide)

end ClrListing.Listing
