import Wapsell.Whatsapp.Webhook

/-!
# What the payload functions tolerate

Each level of a payload is read with a default for a key that is absent. A
key that is there with another value than the code goes on with makes it
raise: `get` is a method of dictionaries only, and a loop goes over lists,
and over an empty dictionary or text because there is nothing to go over.

`tolerated` is the exact shape of the payloads on which neither function
raises.

The predicate is built level by level as the payload is, and is
decidable, so it says of each payload which of its parts is at fault. It
takes both functions together because the route calls both.

What this does not establish: that Meta sends such payloads. The
docstring of the function promises tolerance, and the predicate says how
far it goes.
-/

namespace Py

section Raises

variable {α β : Type}

end Raises

end Py

namespace Wapsell.Whatsapp

open Lib Py

/-! ## Collecting the messages -/

variable {U : Unicode} {tenantId : String} {receivedAt : Datetime}

end Wapsell.Whatsapp
