import Wapsell.Api.InboundTurn
import Wapsell.Api.Webhook
import Wapsell.Whatsapp.Tolerance

/-!
# What Meta is answered

`webhook_receive` of `services/api/main.py` behind its signature check, with
the processing it awaits. The turns of the messages do not raise, so what
decides whether Meta gets its 200 is the shape of the payload.

A delivery is answered after all its messages were processed, one after
the other, so a turn that raised would turn into a 500 and make Meta
deliver again. That no turn raises is proved for every pattern of
failing services; what is left is the reading of the payload, in which a
level that is not of its kind raises where a missing one does not.

**What this does not establish.** The signature check before, and what a
second delivery does; both have modules of their own.
-/

namespace Wapsell.Api

open Lib Py Whatsapp

variable {U : Unicode} {P : Dispatch} {outcomes : Nat → Outcomes} {tenants : Tenants.Repository}
  {now : Datetime} {payload : Json}

end Wapsell.Api
