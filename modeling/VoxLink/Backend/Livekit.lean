import VoxLink.Backend.Gateway

/-! `LivekitController.getToken` and what it uses of `LiveKitService`. The token is its identity,
lifetime and grant; the SDK signs it without a look at the tables. -/

namespace VoxLink

open ProofKit Prog

structure VideoGrant where
  roomJoin : Bool
  room : String
  canPublish : Bool
  canSubscribe : Bool
  canPublishData : Bool
deriving DecidableEq, Repr

structure VoiceToken where
  identity : Uuid
  ttl : String
  grant : VideoGrant
deriving DecidableEq, Repr

namespace LiveKitService

def roomName (channelId : String) : String := "channel:" ++ channelId

/-- The token with the default options. -/
def createToken (room : String) (identity : Uuid) : VoiceToken :=
  { identity, ttl := "4h"
    grant := { roomJoin := true, room, canPublish := true, canSubscribe := true
               canPublishData := true } }

end LiveKitService

namespace LivekitController

def getToken (env : Env) (user : Profile) (channelId : BodyField String) : Service VoiceToken := do
  let view ← ChannelsService.findOneOf env channelId user
  throwIf (view.channel.type ≠ .voice) (.forbidden "Channel is not a voice channel")
  pure (LiveKitService.createToken (LiveKitService.roomName channelId.text) user.id)

end LivekitController

/-- `POST /livekit/token`, behind `JwtAuthGuard`. Nothing validates the body. -/
def livekitToken (env : Env) (token : Option Jwt) (channelId : BodyField String) :
    Backend VoiceToken := do
  let user ← AuthService.authenticate env token
  onDb (LivekitController.getToken env user channelId)

/-! ### The backend with voice tokens -/

inductive Call where
  | input (i : Input)
  | getToken (token : Option Jwt) (channelId : BodyField String)

inductive Reply where
  | output (o : Output)
  | voiceToken (answer : Except Exception VoiceToken)
deriving DecidableEq

/-- One request, event or call for a voice token: the reply and the state after. -/
def Gateway.call (X : Externals) (g : Gateway) (i : Env × Call) : Reply × Gateway :=
  match i.2 with
  | .input input =>
    let (output, g') := g.step X (i.1, input)
    (.output output, g')
  | .getToken token channelId =>
    (.voiceToken ((livekitToken i.1 token channelId).outcome g.server),
      { g with server := (livekitToken i.1 token channelId).final g.server })

end VoxLink
