import DeltaGlider.Engine.Retrieve

/-!
# Requests and reachable states

The engine operations a client can issue against one bucket, and the states
one engine instance reaches by serving any sequence of them, one after the
other, with any of their calls failing as the fault model allows.  Each request carries its own
configuration, so bucket policies (compression, `max_delta_ratio`) may change
between requests.
-/

namespace DeltaGlider.Engine

/-- The engine's public operations. -/
inductive Request where
  | store (key : String) (data : List UInt8) (contentType : Option String) (userMetadata : UserMeta)
  | storeWithMultipartEtag (key : String) (data : List UInt8) (contentType : Option String)
      (userMetadata : UserMeta) (multipartEtag : String)
  | storeSpooledDelta (key : String) (body : List UInt8) (size : Nat) (contentType : Option String)
      (userMetadata : UserMeta) (multipartEtag : Option String)
  | storePassthroughChunked (key : String) (chunks : List (List UInt8)) (totalSize : Nat)
      (contentType : Option String) (userMetadata : UserMeta)
  | storePassthroughChunkedWithMultipartEtag (key : String) (chunks : List (List UInt8))
      (totalSize : Nat) (contentType : Option String) (userMetadata : UserMeta)
      (multipartEtag : String)
  | storePassthroughRelayedParts (key : String) (parts : List (List UInt8)) (totalSize : Nat)
      (contentType : Option String) (userMetadata : UserMeta) (multipartEtag : String)
  | storePassthroughFile (key : String) (body : List UInt8) (totalSize : Nat)
      (contentType : Option String) (userMetadata : UserMeta) (multipartEtag : String)
  | passthroughMultipart (key : String) (parts : List (List UInt8)) (totalSize : Nat)
      (contentType : Option String) (userMetadata : UserMeta) (sha256 md5 : String)
      (multipartEtag : Option String)
  | delete (key : String)
  | deleteInSweep (key : String)
  | reclaimEmptyDeltaspace (ds : String)
  | retrieve (key : String)
  | head (key : String)

/-- The program serving a request, its result dropped. -/
def Request.run (cfg : EngineConfig) : Request → EngineM Unit
  | .store key data ct um => discardE (Engine.store cfg key data ct um)
  | .storeWithMultipartEtag key data ct um mpe => discardE (Engine.storeWithMultipartEtag cfg key data ct um mpe)
  | .storeSpooledDelta key body size ct um mpe => discardE (Engine.storeSpooledDelta cfg key body size ct um mpe)
  | .storePassthroughChunked key chunks n ct um => discardE (Engine.storePassthroughChunked cfg key chunks n ct um)
  | .storePassthroughChunkedWithMultipartEtag key chunks n ct um mpe =>
    discardE (Engine.storePassthroughChunkedWithMultipartEtag cfg key chunks n ct um mpe)
  | .storePassthroughRelayedParts key parts n ct um mpe =>
    discardE (Engine.storePassthroughRelayedPartsWithMultipartEtag cfg key parts n ct um mpe)
  | .storePassthroughFile key body n ct um mpe =>
    discardE (Engine.storePassthroughFileWithMultipartEtag cfg key body n ct um mpe)
  | .passthroughMultipart key parts n ct um sha md5 mpe =>
    discardE (Engine.finishPassthroughMultipart cfg key parts n ct um sha md5 mpe)
  | .delete key => discardE (Engine.delete key)
  | .deleteInSweep key => discardE (Engine.deleteInSweep key)
  | .reclaimEmptyDeltaspace ds => Engine.reclaimEmptyDeltaspace ds
  | .retrieve key => discardE (Engine.retrieve cfg key)
  | .head key => discardE (Engine.head key)

/-- The states instance `inst` reaches from an empty bucket by serving
requests one at a time, each under any configuration, with any call failing
as `faults` allows. -/
inductive Reachable (codec : DeltaCodec) (inst : Nat) (faults : FaultModel) : EngineState → Prop
  | init : Reachable codec inst faults .init
  | step {s s' : EngineState} (cfg : EngineConfig) (req : Request) (r : Except EngineError Unit) :
      Reachable codec inst faults s → Prog.Runs (Step codec inst faults) (req.run cfg).run s r s' →
        Reachable codec inst faults s'

/-- A state property that holds initially and that every request preserves
holds in every reachable state. -/
theorem Reachable.induction {codec : DeltaCodec} {inst : Nat} {faults : FaultModel}
    {P : EngineState → Prop} (hinit : P .init)
    (hstep : ∀ cfg req s, P s → wpE codec inst faults (Request.run cfg req) (fun _ s' => P s') s)
    {s : EngineState} (h : Reachable codec inst faults s) : P s := by
  induction h with
  | init => exact hinit
  | step cfg req r _ hrun ih =>
    exact (Prog.wp_iff_runs _ _ _).mp (hstep cfg req _ ih) r _ hrun

end DeltaGlider.Engine
