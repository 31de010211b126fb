import CodeColor.Service.Encoding
import CodeColor.Service.Host
import CodeColor.Service.Page

/-! What the service answers. -/

namespace CodeColor.Service

def answerDetect (host : Host) (request : Request) : Except Fault Json :=
  match host.submitted request.body? with
  | .error failure => .error (.unread failure)
  | .ok submission => (detectSubmission request.limit host.nesting submission).map Explanation.toJson

def answerHighlight (host : Host) (request : Request) : Except Fault Json :=
  match host.submitted request.body? with
  | .error failure => .error (.unread failure)
  | .ok submission => (highlightSubmission request.limit host.nesting submission).map Highlighted.toJson

/-- A refusal is an answer of the service. Any other fault is left to the framework. -/
def respond (host : Host) : Except Fault Json → Response
  | .ok value => ⟨200, .json value⟩
  | .error (.refused refusal) => refusal.response
  | .error (.unread _) => ⟨500, .page host.failurePage⟩
  | .error (.unrendered _) => ⟨500, .page host.failurePage⟩

def handle (host : Host) (request : Request) : Handler → Response
  | .route .page => ⟨200, .page indexPage⟩
  | .route .languages => ⟨200, .json languagesToJson⟩
  | .route .detect => respond host (answerDetect host request)
  | .route .highlight => respond host (answerHighlight host request)
  | .notFound => errorResponse 404 "Not found" []
  | .methodNotAllowed => errorResponse 405 "Method not allowed" []
  | .own response => response

def answer (host : Host) (request : Request) : Response :=
  let destination := host.destination request.method request.path
  let response := handle host request destination.handler
  if destination.headOnly then ⟨response.status, .page ""⟩ else response

end CodeColor.Service
