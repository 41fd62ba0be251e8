import RedStore.CLib.Markup
import RedStore.CLib.Simulation
import RedStore.GraphStore.Dataset
import RedStore.RedHttp.AcceptGrammar
import RedStore.RedHttp.AllowHeader
import RedStore.RedHttp.ArgumentLoop
import RedStore.RedHttp.EmptyKeys
import RedStore.RedHttp.LastTarget
import RedStore.RedHttp.LineReader
import RedStore.RedHttp.NegotiateChoose
import RedStore.RedHttp.NegotiateItems
import RedStore.RedHttp.NegotiatePrint
import RedStore.RedHttp.PathGlobs
import RedStore.RedHttp.PlainResponses
import RedStore.RedHttp.ReadBack
import RedStore.RedHttp.ReadNodes
import RedStore.RedHttp.StatusLineGrammar
import RedStore.RedHttp.UrlRoundTrip
import RedStore.Service.BodyReads
import RedStore.Service.Endpoint
import RedStore.Service.ErrorBuffer
import RedStore.Service.ErrorPages
import RedStore.Service.FalseSuccess
import RedStore.Service.Framing
import RedStore.Service.GraphForms
import RedStore.Service.Graphs
import RedStore.Service.Identifiers
import RedStore.Service.LogCalls
import RedStore.Service.NegotiateFormat
import RedStore.Service.NewGraphPosts
import RedStore.Service.ProgramRounds
import RedStore.Service.QueryProtocol
import RedStore.Service.RouteOrder
import RedStore.Service.SafeRequests
import RedStore.Service.TrailingSlash
