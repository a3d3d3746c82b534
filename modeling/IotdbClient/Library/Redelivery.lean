/-!
# Requests that are sent again

A client that sends a request once more when no answer came cannot know whether the first one was
carried out.  Where carrying out a request twice in a row has the effect of carrying it out once, it
need not know.  Requests are listed newest first, each with whether it is known to have been carried
out; nothing is known of the others.
-/

namespace IotdbClient.Library

variable {ρ σ : Type}

variable {effect : ρ → σ → σ} {start s : σ} {sent calls : List (ρ × Bool)}

end IotdbClient.Library
