import ExertGrpc.Outcome
import ExertGrpc.PrefixCut
import ExertGrpc.TransitionRun
import ExertGrpc.TransitionVariant
import ExertGrpc.ExclusiveFile
import ExertGrpc.CertificationPath
import ExertGrpc.HostedLoops
import ExertGrpc.ReusePort
import ExertGrpc.Der
import ExertGrpc.RegExp
import ExertGrpc.DotNet
import ExertGrpc.SkiaText
import ExertGrpc.SkiaExtentions
import ExertGrpc.SkiaDemoImplement
import ExertGrpc.ImageSharpDemoImplement
import ExertGrpc.SkiaWrapping
import ExertGrpc.SkiaFewestLines
import ExertGrpc.SkiaLayout
import ExertGrpc.SkiaReply
import ExertGrpc.ImageSharpReply
import ExertGrpc.SkiaCanvas
import ExertGrpc.SkiaMargin
import ExertGrpc.SkiaWidths
import ExertGrpc.ClientService
import ExertGrpc.ClientExecute
import ExertGrpc.X509
import ExertGrpc.CertsMakeService
import ExertGrpc.EnsureRootCert
import ExertGrpc.EnsureRootCertRuns
import ExertGrpc.RootCerts
import ExertGrpc.CertificateEvents
import ExertGrpc.CertificateEventRuns
import ExertGrpc.CertsIdentity
import ExertGrpc.CertsAuthService
import ExertGrpc.AuthorityKeyIdentifier
import ExertGrpc.ClientCertWindow
import ExertGrpc.KebabCase
import ExertGrpc.PageRoutes
import ExertGrpc.PageFiles
import ExertGrpc.RouterPush
import ExertGrpc.CertificateFileRuns
import ExertGrpc.EnsureRootCertLives
import ExertGrpc.IssuedPaths
import ExertGrpc.AuthDemoClient
import ExertGrpc.ClientBook
import ExertGrpc.CsDemoSystem
import ExertGrpc.CertificateCallers
import ExertGrpc.PyDemoServerMp
