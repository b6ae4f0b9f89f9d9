import AiLabOs.Interaction.Ingress

/-!
# Trusted interactions: the system

Any number of calls of the service and of the bridge over one world, in any interleaving. A call
that gets no further event has crashed.

## Main definitions

* `Request`, `start`: what a call can ask for, and the program it runs
* `Reachable`: the configurations some run leads to
-/

namespace Interactions

open Process

/-- What a call asks for. -/
inductive Request where
  | create (a : CreateArgs)
  | preview (a : PreviewArgs)
  | confirm (a : ConfirmArgs)
  | approve (a : ApproveArgs)
  | cancel (a : RevisionArgs)
  | expirePreview (a : RevisionArgs)
  | startExecution (a : RevisionArgs)
  | verify (a : RevisionArgs)
  | recover (a : RevisionArgs)
  | status (workspace : WorkspaceKey) (actorId interactionId : String)
  | acceptEvidence (wire : String)
  | bridgePreview (parameters : JsonDoc) (idempotencyKey : String)
  | bridgeConfirm (a : BridgeConfirmArgs)
deriving DecidableEq

/-- What a call returns. -/
inductive Result where
  | interaction (r : Interaction)
  | preview (p : Preview)
  | confirmation (c : Confirmation)
  | approval (a : Approval)
  | status (s : InteractionStatus)
  | evidence (id : String)
  | bridge (r : BridgeReply)
deriving DecidableEq, Repr

/-- The fixed parts of a deployment: the hash and the configuration of the bridge. -/
structure Deployment where
  sha : Sha256
  bridge : BridgeConfig

/-- The program of a request. The bridge is the only caller that consumes trusted evidence. -/
def start (d : Deployment) : Request → Prog Result
  | .create a => .interaction <$> createInteraction d.sha a
  | .preview a => .preview <$> preview d.sha a
  | .confirm a => .confirmation <$> confirm d.sha { a with consumption := none }
  | .approve a => .approval <$> approve d.sha a
  | .cancel a => .interaction <$> cancel d.sha a
  | .expirePreview a => .interaction <$> expirePreview d.sha a
  | .startExecution a => .status <$> startExecution d.sha a
  | .verify a => .status <$> verify d.sha a
  | .recover a => .status <$> recover d.sha a
  | .status workspace actorId id => .status <$> status workspace actorId id
  | .acceptEvidence wire => .evidence <$> acceptEvidence d.sha d.bridge wire
  | .bridgePreview parameters key => .bridge <$> bridgePreview d.sha d.bridge parameters key
  | .bridgeConfirm a => .bridge <$> bridgeConfirm d.sha d.bridge a

/-- The calls in flight over the world. -/
abbrev Calls := Config Request Action Action.Reply Raised Result World

/-- Some run from the initial world leads to `c`. -/
def Reachable (d : Deployment) (c : Calls) : Prop :=
  Reaches handler (start d) (idle World.initial) c

end Interactions
