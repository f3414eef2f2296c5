import GophProfile.Breaker

/-! The publisher of the `rabbitmq` package: an event is published once the broker has
confirmed it. -/
namespace GophProfile.RabbitMQ

open Domain

def routingUploaded : GoString := lit "avatar.uploaded"
def routingDeleted : GoString := lit "avatar.deleted"

def confirmed (routingKey messageID : GoString) (answer : Except Err Confirmation) : Except Err Unit :=
  match answer with
  | .error err => .error (.errorf "publish %s: %w" [routingKey] err)
  | .ok .missing => .error (.new "publish %s: канал не в режиме подтверждений" [routingKey])
  | .ok (.waitFailed err) => .error (.errorf "wait confirm %s: %w" [routingKey] err)
  | .ok .nacked => .error (.new "брокер отклонил сообщение %s" [messageID])
  | .ok .acked => .ok ()

structure Publisher where
  breaker : Option Breaker

namespace Publisher

def publishUpload (p : Publisher) (event : AvatarUploadEvent) : Prog (Except Err Unit) :=
  Breaker.call p.breaker do
    return confirmed routingUploaded event.avatarID (← ask (.publishUpload event))

/-- Deletions bypass the breaker: nothing would publish them a second time. -/
def publishDelete (_p : Publisher) (event : AvatarDeleteEvent) : Prog (Except Err Unit) :=
  Breaker.call none do
    return confirmed routingDeleted event.avatarID (← ask (.publishDelete event))

end Publisher

end GophProfile.RabbitMQ
